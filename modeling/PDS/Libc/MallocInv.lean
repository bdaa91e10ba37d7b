import PDS.Libc.Malloc
import PDS.Lib.Tags

/-!
# The blocks of the heap

`Blocks m base top l`: the memory from `base` to `top` is the row of blocks `l`, and their headers say so. `Row` is the
same with a parameter for the least size of the data, which `malloc(0)` makes `0`. The lemmas say what the steps of
`malloc` and `free` do to the row, that they leave the data of the blocks in use alone (`Kept`), and what becomes of a
block that has been freed (`Freed`).
-/

namespace PDS.Libc
open Word Tags

section Memory

variable {m m' : Mem} {a x v : Nat} {h : Mheader}

/-- A word that has been stored is read back. -/
lemma word_setWord (lt : v < 2 ^ 32) : (m.setWord a v).word a = v := by
  simp only [Mem.word, Mem.setWord, if_true]
  rw [if_neg (by omega), if_neg (by omega), if_neg (by omega), if_neg (by omega), if_neg (by omega), if_neg (by omega)]
  simp only [UInt8.toNat_ofNat']
  omega

/-- A store of a word leaves other bytes alone. -/
lemma setWord_of_ne (out : x < a ∨ a + 4 ≤ x) : m.setWord a v x = m x := by
  rw [Mem.setWord, if_neg (by omega), if_neg (by omega), if_neg (by omega), if_neg (by omega)]

/-- A word depends on its own bytes only. -/
lemma word_congr (same : ∀ x, a ≤ x → x < a + 4 → m' x = m x) : m'.word a = m.word a := by
  rw [Mem.word, Mem.word, same a le_rfl (by omega), same (a + 1) (by omega) (by omega),
    same (a + 2) (by omega) (by omega), same (a + 3) (by omega) (by omega)]

/-- So does a header. -/
lemma header_congr (same : ∀ x, a ≤ x → x < a + mblocksize → m' x = m x) : m'.header a = m.header a := by
  rw [mblocksize] at same
  have first : m'.word a = m.word a := word_congr fun x le lt => same x le (by omega)
  have second : m'.word (a + 4) = m.word (a + 4) := word_congr fun x le lt => same x (by omega) (by omega)
  rw [Mem.header, Mem.header, first, second]

/-- What has been written is read. -/
lemma header_setHeader : (m.setHeader a h).header a = h := by
  obtain ⟨prev, pad, magic1, next, inuse, magic2⟩ := h
  have lt₁ : prev.toNat * 8 + pad.toNat * 4 + magic1.toNat < 2 ^ 32 := by omega
  have lt₂ : next.toNat * 8 + inuse.toNat * 4 + magic2.toNat < 2 ^ 32 := by omega
  have first : (m.setHeader a ⟨prev, pad, magic1, next, inuse, magic2⟩).word a
      = prev.toNat * 8 + pad.toNat * 4 + magic1.toNat := by
    rw [← word_setWord (m := m) (a := a) lt₁]
    exact word_congr fun x le lt => setWord_of_ne (.inl (by omega))
  have second : (m.setHeader a ⟨prev, pad, magic1, next, inuse, magic2⟩).word (a + 4)
      = next.toNat * 8 + inuse.toNat * 4 + magic2.toNat := word_setWord lt₂
  rw [Mem.header, first, second, Mheader.mk.injEq]
  refine ⟨?_, ?_, ?_, ?_, ?_, ?_⟩ <;> apply BitVec.eq_of_toNat_eq <;> rw [BitVec.toNat_ofNat] <;> omega

/-- A store of a header leaves other bytes alone. -/
lemma setHeader_of_ne (out : x < a ∨ a + mblocksize ≤ x) : m.setHeader a h x = m x := by
  rw [mblocksize] at out
  rw [Mem.setHeader, setWord_of_ne (by omega), setWord_of_ne (by omega)]

/-- The first word of a wiped header. -/
lemma word_deadbeef : (deadbeef m a mblocksize).word a = 0xdeadbeef := by
  have first : (deadbeef m a mblocksize).word a = (m.setWord a 0xdeadbeef).word a :=
    word_congr fun x _ lt => setWord_of_ne (.inl (by omega))
  rw [first, word_setWord (by decide)]

/-- Wiping leaves other bytes alone. -/
lemma deadbeef_of_ne {n : Nat} (out : x < a ∨ a + n ≤ x) : deadbeef m a n x = m x := by
  have words : ∀ k, k ≤ n / 4 → deadbeefWords m a k x = m x := by
    intro k le
    induction k with
    | zero => rfl
    | succ k ih => rw [deadbeefWords, setWord_of_ne (by omega), ih (by omega)]
  exact words _ le_rfl

end Memory

/-- A field holds a multiple of the block size. -/
lemma mkfield_toNat (off : Nat) (dvd : mblocksize ∣ off) (lt : off < 2 ^ 32) :
    (mMkfield off).toNat * 2 ^ mblockshift = off := by
  rw [mMkfield, BitVec.toNat_ofNat, mblockshift]
  rw [mblocksize] at dvd
  omega

/-- The header at `a` is that of the block `b` behind a block of the size `prev`. -/
structure Tag (m : Mem) (a prev : Nat) (b : Piece) : Prop where
  ok : (m.header a).ok = true
  prevoff : (m.header a).prevoff = prev
  nextoff : (m.header a).nextoff = b.size
  inuse : (m.header a).inuse = if b.used then 1 else 0

section Header

variable {m m' : Mem} {a prev : Nat} {b : Piece}

/-- A tag depends on the bytes of its header only. -/
lemma Tag.congr (t : Tag m a prev b) (same : ∀ x, a ≤ x → x < a + mblocksize → m' x = m x) : Tag m' a prev b := by
  refine ⟨?_, ?_, ?_, ?_⟩ <;> rw [header_congr same]
  · exact t.ok
  · exact t.prevoff
  · exact t.nextoff
  · exact t.inuse

/-- The size of a tag is a word. -/
lemma Tag.lt (t : Tag m a prev b) : b.size < 2 ^ 32 := by
  have lt := (m.header a).nextblock.isLt
  rw [← t.nextoff, Mheader.nextoff, mblockshift]
  omega

/-- The header says the size of the data. -/
lemma Tag.size (t : Tag m a prev b) (le : mblocksize ≤ b.size) : (m.header a).size = b.size - mblocksize := by
  rw [Mheader.size, t.nextoff, wsub_of_le le t.lt]

/-- The header of a used block says so. -/
lemma Tag.inuse_ne (t : Tag m a prev b) (used : b.used = true) : (m.header a).inuse ≠ 0 := by
  rw [t.inuse, if_pos used]
  decide

/-- The header of a free block says so. -/
lemma Tag.inuse_eq (t : Tag m a prev b) (free : b.used = false) : (m.header a).inuse = 0 := by
  rw [t.inuse, if_neg (by rw [free]; decide)]

/-- `M_NEXT` leads to the end of the block. -/
lemma Tag.next (t : Tag m a prev b) (lt : a + b.size < 2 ^ 32) : mNext m a = a + b.size := by
  rw [mNext, t.nextoff, wadd_of_lt lt]

/-- `M_PREV` leads to the start of the block before. -/
lemma Tag.before (t : Tag m a prev b) (le : prev ≤ a) (lt : a < 2 ^ 32) : mPrev m a = a - prev := by
  rw [mPrev, t.prevoff, wsub_of_le le lt]

/-- A header that has been written. -/
lemma Tag.written {h : Mheader} (ok : h.ok = true) (prevoff : h.prevoff = prev) (nextoff : h.nextoff = b.size)
    (inuse : h.inuse = if b.used then 1 else 0) : Tag (m.setHeader a h) a prev b := by
  refine ⟨?_, ?_, ?_, ?_⟩ <;> rw [header_setHeader]
  · exact ok
  · exact prevoff
  · exact nextoff
  · exact inuse

/-- A new value for `mh_prevblock`. -/
lemma Tag.setPrev {off : Nat} {v : BitVec 29} (t : Tag m a prev b) (e : v.toNat * 2 ^ mblockshift = off) :
    Tag (m.setHeader a { m.header a with prevblock := v }) a off b := by
  have fields : ∀ h : Mheader, ({ h with prevblock := v } : Mheader).ok = h.ok ∧
      ({ h with prevblock := v } : Mheader).prevoff = v.toNat * 2 ^ mblockshift ∧
      ({ h with prevblock := v } : Mheader).nextoff = h.nextoff := fun _ => ⟨rfl, rfl, rfl⟩
  obtain ⟨ok, prevoff, nextoff⟩ := fields (m.header a)
  exact .written (ok.trans t.ok) (prevoff.trans e) (nextoff.trans t.nextoff) t.inuse

/-- A new value for `mh_nextblock`. -/
lemma Tag.setNext {n : Nat} {v : BitVec 29} (t : Tag m a prev b) (e : v.toNat * 2 ^ mblockshift = n) :
    Tag (m.setHeader a { m.header a with nextblock := v }) a prev ⟨n, b.used⟩ := by
  have fields : ∀ h : Mheader, ({ h with nextblock := v } : Mheader).ok = h.ok ∧
      ({ h with nextblock := v } : Mheader).prevoff = h.prevoff ∧
      ({ h with nextblock := v } : Mheader).nextoff = v.toNat * 2 ^ mblockshift := fun _ => ⟨rfl, rfl, rfl⟩
  obtain ⟨ok, prevoff, nextoff⟩ := fields (m.header a)
  exact .written (ok.trans t.ok) (prevoff.trans t.prevoff) (nextoff.trans e) t.inuse

/-- A new value for `mh_inuse`. -/
lemma Tag.setInuse {v : BitVec 1} (t : Tag m a prev b) (used : Bool) (e : v = if used then 1 else 0) :
    Tag (m.setHeader a { m.header a with inuse := v }) a prev ⟨b.size, used⟩ := by
  have fields : ∀ h : Mheader, ({ h with inuse := v } : Mheader).ok = h.ok ∧
      ({ h with inuse := v } : Mheader).prevoff = h.prevoff ∧
      ({ h with inuse := v } : Mheader).nextoff = h.nextoff := fun _ => ⟨rfl, rfl, rfl⟩
  obtain ⟨ok, prevoff, nextoff⟩ := fields (m.header a)
  exact .written (ok.trans t.ok) (prevoff.trans t.prevoff) (nextoff.trans t.nextoff) e

/-- A new header. -/
lemma Tag.new {n : Nat} {v w : BitVec 29} {u : BitVec 1} (used : Bool) (ep : v.toNat * 2 ^ mblockshift = prev)
    (en : w.toNat * 2 ^ mblockshift = n) (e : u = if used then 1 else 0) :
    Tag (m.setHeader a ⟨v, 0, mmagic, w, u, mmagic⟩) a prev ⟨n, used⟩ :=
  .written rfl ep en e

end Header

/-- The sizes of blocks: a header and some data, in whole units. -/
def Whole (l : List Piece) : Prop := ∀ b ∈ l, mblocksize ∣ b.size ∧ 2 * mblocksize ≤ b.size

/-- The memory from `base` to `top` is the row of blocks `l`. -/
structure Blocks (m : Mem) (base top : Nat) (l : List Piece) : Prop where
  dvd : mblocksize ∣ base
  stop : base + total l = top
  lt : top < 2 ^ 32
  whole : Whole l
  tags : Tagged (Tag m) 0 base l

/-- The sizes of blocks with at least `d` bytes of data, in whole units. -/
def Sized (d : Nat) (l : List Piece) : Prop := ∀ b ∈ l, mblocksize ∣ b.size ∧ mblocksize + d ≤ b.size

/-- The memory from `base` to `top` is the row of blocks `l`, each of them with at least `d` bytes of data. -/
structure Row (d : Nat) (m : Mem) (base top : Nat) (l : List Piece) : Prop where
  dvd : mblocksize ∣ base
  stop : base + total l = top
  lt : top < 2 ^ 32
  sized : Sized d l
  tags : Tagged (Tag m) 0 base l

/-- In the blocks that are asked for with positive sizes there is some data. -/
lemma blocks_iff {m : Mem} {base top : Nat} {l : List Piece} :
    Blocks m base top l ↔ Row mblocksize m base top l := by
  have sizes : Whole l ↔ Sized mblocksize l := by
    rw [Whole, Sized, Nat.two_mul]
  constructor
  · rintro ⟨dvd, stop, lt, whole, tags⟩
    exact ⟨dvd, stop, lt, sizes.1 whole, tags⟩
  · rintro ⟨dvd, stop, lt, sized, tags⟩
    exact ⟨dvd, stop, lt, sizes.2 sized, tags⟩

/-- The data of the blocks in use is the same. -/
def Kept (m m' : Mem) (base : Nat) (l : List Piece) : Prop :=
  ∀ y b, At base l y b → b.used = true → ∀ x, y + mblocksize ≤ x → x < y + b.size → m' x = m x

/-- A block of the size `n` that was at `y` is free: it is the front of a free block, or it lies in one and its header
has been wiped. -/
def Freed (m : Mem) (base : Nat) (l : List Piece) (y n : Nat) : Prop :=
  ∃ z k, At base l z ⟨k, false⟩ ∧ z ≤ y ∧ y + n ≤ z + k ∧ (z = y ∨ z + mblocksize ≤ y ∧ m.word y = 0xdeadbeef)

section Rows

variable {d : Nat} {m m' m'' : Mem} {base top a prev : Nat} {b c : Piece} {p q l l' : List Piece}

/-- Some of the blocks have allowed sizes if all have. -/
lemma Sized.sub (w : Sized d l) (sub : l' ⊆ l) : Sized d l' := fun b hb => w b (sub hb)

/-- Blocks of two parts have allowed sizes. -/
lemma Sized.append (w : Sized d l) (w' : Sized d l') : Sized d (l ++ l') := fun b hb =>
  (List.mem_append.1 hb).elim (w b) (w' b)

/-- One more block of an allowed size. -/
lemma Sized.cons (h : mblocksize ∣ b.size ∧ mblocksize + d ≤ b.size) (w : Sized d l) : Sized d (b :: l) := by
  intro c hc
  cases List.mem_cons.1 hc with
  | inl e => rwa [e]
  | inr hc => exact w c hc

/-- Blocks are kept over two steps. -/
lemma Kept.trans (k : Kept m m' base l) (k' : Kept m' m'' base l) : Kept m m'' base l :=
  fun y b h used x le lt => (k' y b h used x le lt).trans (k y b h used x le lt)

/-- The blocks that are kept are the used ones. -/
lemma Kept.congr (k : Kept m m' base l) (same : SameUsed base l l') : Kept m m' base l' :=
  fun y b h used => k y b ((same y b used).1 h) used

/-- Only a free block and the header behind it have been written. -/
lemma Kept.of_outside {n : Nat}
    (out : ∀ x, x < base + total p ∨ base + total p + n + mblocksize ≤ x → m' x = m x) :
    Kept m m' base (p ++ ⟨n, false⟩ :: q) := by
  intro y b h used x le lt
  apply out
  rw [at_append, At] at h
  obtain h | ⟨-, rfl⟩ | h := h
  · have := h.within.2
    omega
  · cases used
  · have := h.within.1
    dsimp only at this
    omega

/-- The headers of blocks that have not been written. -/
lemma tags_same (w : Sized d l) (t : Tagged (Tag m) prev a l) (same : ∀ x, a ≤ x → x < a + total l → m' x = m x) :
    Tagged (Tag m') prev a l := by
  refine t.congr fun x prev b h tag => tag.congr fun y le lt => ?_
  have within := h.within
  have size := (w b h.mem).2
  exact same y (by omega) (by omega)

/-- The block behind a new one is told about it. -/
lemma tags_relink {prev' : Nat} {v : BitVec 29} (w : Sized d q) (t : Tagged (Tag m) prev a q) (stop : a + total q = top)
    (e : v.toNat * 2 ^ mblockshift = prev') :
    ∃ m', (if a ≠ top then m.setHeader a { m.header a with prevblock := v } else m) = m' ∧
      Tagged (Tag m') prev' a q ∧ ∀ x, x < a ∨ a + mblocksize ≤ x → m' x = m x := by
  cases q with
  | nil =>
    have eq : a = top := stop
    exact ⟨m, if_neg (not_not.2 eq), trivial, fun _ _ => rfl⟩
  | cons b q =>
    have size := (w b List.mem_cons_self).2
    have eight : mblocksize = 8 := rfl
    rw [total_cons] at stop
    have out : ∀ x, x < a ∨ a + mblocksize ≤ x → m.setHeader a { m.header a with prevblock := v } x = m x :=
      fun x h => setHeader_of_ne h
    refine ⟨_, if_pos (by omega), ⟨t.1.setPrev e, ?_⟩, out⟩
    exact tags_same (w.sub (List.subset_cons_self ..)) t.2 (fun x le lt => out x (by omega))

namespace Row

/-- The header of a block of the row. -/
lemma tag (bl : Row d m base top (p ++ b :: q)) : Tag m (base + total p) (last 0 p) b :=
  (tagged_append.1 bl.tags).2.1

/-- The headers behind a block of the row. -/
lemma rest (bl : Row d m base top (p ++ b :: q)) : Tagged (Tag m) b.size (base + total p + b.size) q :=
  (tagged_append.1 bl.tags).2.2

/-- Where a block of the row is, and its size. -/
lemma place (bl : Row d m base top (p ++ b :: q)) :
    base + total p + b.size + total q = top ∧ mblocksize ∣ b.size ∧ mblocksize + d ≤ b.size := by
  have stop := bl.stop
  rw [total_append, total_cons] at stop
  exact ⟨by omega, bl.sized b (by simp)⟩

/-- Some blocks are replaced by others that are as long. -/
lemma replace (mid mid' : List Piece) (bl : Row d m base top (p ++ (mid ++ q))) (size : total mid' = total mid)
    (w : Sized d mid') (below : ∀ x, x < base + total p → m' x = m x)
    (tags : Tagged (Tag m') (last 0 p) (base + total p) (mid' ++ q)) : Row d m' base top (p ++ (mid' ++ q)) where
  dvd := bl.dvd
  stop := by
    have stop := bl.stop
    rw [total_append, total_append] at stop ⊢
    rwa [size]
  lt := bl.lt
  sized := (bl.sized.sub (List.subset_append_left ..)).append
    (w.append (bl.sized.sub fun b hb => by simp [hb]))
  tags := by
    refine tagged_append.2 ⟨?_, tags⟩
    exact tags_same (bl.sized.sub (List.subset_append_left ..)) (tagged_append.1 bl.tags).1 fun x _ lt => below x lt

/-- A block is marked, and only it is written. -/
lemma mark {n : Nat} {u u' : Bool} (bl : Row d m base top (p ++ ⟨n, u⟩ :: q))
    (tag : Tag m' (base + total p) (last 0 p) ⟨n, u'⟩)
    (out : ∀ x, x < base + total p ∨ base + total p + n ≤ x → m' x = m x) :
    Row d m' base top (p ++ ⟨n, u'⟩ :: q) := by
  have w : Sized d [⟨n, u'⟩] := by
    refine Sized.cons bl.place.2 ?_
    exact fun b hb => by cases hb
  refine replace [⟨n, u⟩] [⟨n, u'⟩] bl rfl w (fun x lt => out x (.inl lt)) ⟨tag, ?_⟩
  exact tags_same (bl.sized.sub fun b hb => List.mem_append_right _ (List.mem_cons_of_mem _ hb)) bl.rest
    fun x le _ => out x (.inr le)

/-- A free block is cut in two when enough of it is left. -/
lemma split {n size : Nat} (bl : Row d m base top (p ++ ⟨n, false⟩ :: q)) (dvd : mblocksize ∣ size)
    (least : d ≤ mblocksize) (enough : d ≤ size) (fits : size + mblocksize ≤ n) :
    ∃ m' k r, mallocSplit m top (base + total p) size = .ok m' ∧ size + mblocksize ≤ k ∧ k + total r = n ∧
      (r = [] ∨ ∃ n', r = [⟨n', false⟩]) ∧ Row d m' base top (p ++ ⟨k, false⟩ :: (r ++ q)) ∧
      ∀ x, x < base + total p ∨ base + total p + n + mblocksize ≤ x → m' x = m x := by
  obtain ⟨stop, dvdn, len⟩ := bl.place
  dsimp only at stop dvdn len
  have lt := bl.lt
  have tag := bl.tag
  have data := tag.size (by dsimp only; omega)
  dsimp only at data
  have next : mNext m (base + total p) = base + total p + n := tag.next (by dsimp only; omega)
  rw [mallocSplit, if_neg (by rw [Nat.mod_eq_zero_of_dvd dvd]; exact not_not.2 rfl), data,
    wsub_of_le (by omega) (by omega)]
  by_cases room : n - mblocksize - size < 2 * mblocksize
  · rw [if_pos room]
    exact ⟨m, n, [], rfl, fits, rfl, .inl rfl, bl, fun _ _ => rfl⟩
  · have sum : wadd 32 size mblocksize = size + mblocksize := wadd_of_lt (by omega)
    have left : wsub 32 (n - mblocksize) size = n - mblocksize - size := wsub_of_le (by omega) (by omega)
    have field₁ := mkfield_toNat (size + mblocksize) (Nat.dvd_add dvd (dvd_refl _)) (by omega)
    have field₂ := mkfield_toNat (n - mblocksize - size)
      (Nat.dvd_sub (Nat.dvd_sub dvdn (dvd_refl _)) dvd) (by omega)
    rw [if_neg room]
    dsimp only
    rw [sum, left]
    -- the header of the block, that of the new block and that of the block behind them
    have tag₁ := tag.setNext field₁
    generalize out₁ : m.setHeader _ _ = m₁ at tag₁ ⊢
    have next₁ : mNext m₁ (base + total p) = base + total p + (size + mblocksize) := tag₁.next (by dsimp only; omega)
    have eight : mblocksize = 8 := rfl
    rw [next, next₁, if_neg (by omega)]
    have tag₂ := Tag.new (m := m₁) (a := base + total p + (size + mblocksize)) (u := 0) false field₁ field₂ rfl
    have head := header_setHeader (m := m₁) (a := base + total p + (size + mblocksize))
      (h := ⟨mMkfield (size + mblocksize), 0, mmagic, mMkfield (n - mblocksize - size), 0, mmagic⟩)
    generalize out₂ : m₁.setHeader _ _ = m₂ at tag₂ head ⊢
    rw [head]
    dsimp only
    have same : ∀ x, x < base + total p ∨ base + total p + n ≤ x → m₂ x = m x := by
      intro x h
      rw [← out₂, setHeader_of_ne (by omega), ← out₁, setHeader_of_ne (by omega)]
    have wq : Sized d q := bl.sized.sub fun b hb => List.mem_append_right _ (List.mem_cons_of_mem _ hb)
    obtain ⟨m₃, relink, tags, out₃⟩ :=
      tags_relink wq (tags_same wq bl.rest fun x le _ => same x (.inr le)) stop field₂
    dsimp only at tags out₃
    refine ⟨m₃, size + mblocksize, [⟨n - mblocksize - size, false⟩], ?_, le_rfl, ?_, .inr ⟨_, rfl⟩, ?_, ?_⟩
    · exact (apply_ite Except.ok _ _ _).symm.trans (congrArg Except.ok relink)
    · rw [total_cons, total_nil]
      dsimp only
      omega
    · have w : Sized d [⟨size + mblocksize, false⟩, ⟨n - mblocksize - size, false⟩] := by
        refine Sized.cons ⟨Nat.dvd_add dvd (dvd_refl _), by dsimp only; omega⟩
          (Sized.cons ⟨Nat.dvd_sub (Nat.dvd_sub dvdn (dvd_refl _)) dvd, by dsimp only; omega⟩ ?_)
        exact fun b hb => by cases hb
      have sum : size + mblocksize + (n - mblocksize - size) = n := by omega
      refine replace [⟨n, false⟩] [⟨size + mblocksize, false⟩, ⟨n - mblocksize - size, false⟩] bl ?_ w ?_
        ⟨?_, ?_, ?_⟩
      · rw [total_cons, total_cons, total_cons, total_nil]
        dsimp only
        omega
      · intro x lt
        rw [out₃ x (by omega), same x (by omega)]
      · refine tag₁.congr fun x le lt => ?_
        rw [out₃ x (by omega), ← out₂, setHeader_of_ne (by omega)]
      · show Tag m₃ (base + total p + (size + mblocksize)) (size + mblocksize) _
        exact tag₂.congr fun x le lt => out₃ x (by omega)
      · show Tagged (Tag m₃) _ (base + total p + (size + mblocksize) + (n - mblocksize - size)) q
        rw [show base + total p + (size + mblocksize) + (n - mblocksize - size) = base + total p + n by omega]
        exact tags
    · intro x h
      rw [out₃ x (by omega), same x (by omega)]

/-- From any block on, the search ends with a free block that is big enough, or at the top with the size of the last
block. -/
lemma findFit_spec {fuel right : Nat} (bl : Row d m base top (p ++ q)) (size : Nat)
    (r : right * 2 ^ mblockshift = last 0 p) (enough : total q < fuel) :
    (∃ q₁ n q₂ r', q = q₁ ++ ⟨n, false⟩ :: q₂ ∧ size + mblocksize ≤ n ∧
      findFit m top size fuel (base + total p) right = .ok (some (base + total p + total q₁), r')) ∨
    (∀ b ∈ q, b.used = false → b.size < size + mblocksize) ∧ ∃ r', r' * 2 ^ mblockshift = last 0 (p ++ q) ∧
      findFit m top size fuel (base + total p) right = .ok (none, r') := by
  induction q generalizing p fuel right with
  | nil =>
    right
    have stop := bl.stop
    rw [List.append_nil] at stop ⊢
    obtain ⟨fuel, rfl⟩ := Nat.exists_eq_succ_of_ne_zero (Nat.ne_of_gt (Nat.zero_lt_of_lt enough))
    refine ⟨fun b mem => absurd mem List.not_mem_nil, right, r, ?_⟩
    rw [findFit, if_neg (by omega), if_neg (not_not.2 stop)]
  | cons b q ih =>
    obtain ⟨stop, dvd, len⟩ := bl.place
    have eight : mblocksize = 8 := rfl
    have lt := bl.lt
    have tag := bl.tag
    rw [total_cons] at enough
    obtain ⟨fuel, rfl⟩ := Nat.exists_eq_succ_of_ne_zero (Nat.ne_of_gt (Nat.zero_lt_of_lt enough))
    have prev : (m.header (base + total p)).prevblock.toNat = right := by
      have eq := tag.prevoff.trans r.symm
      rw [Mheader.prevoff] at eq
      exact Nat.eq_of_mul_eq_mul_right (Nat.two_pow_pos _) eq
    have next : wadd 32 (base + total p) (m.header (base + total p)).nextoff = base + total p + b.size :=
      tag.next (by omega)
    rw [findFit, if_pos (by omega), if_neg (by rw [tag.ok]; exact not_not.2 rfl), if_neg (not_not.2 prev)]
    -- the rest of the search
    have step := @ih (p ++ [b]) fuel (m.header (base + total p)).nextblock.toNat
      (by rwa [List.append_assoc, List.singleton_append]) (by rw [last_concat]; exact tag.nextoff) (by omega)
    rw [total_append, total_cons, total_nil, Nat.add_zero, ← Nat.add_assoc, List.append_assoc,
      List.singleton_append] at step
    have rest (pass : b.used = false → b.size < size + mblocksize) :
        (∃ q₁ n q₂ r', b :: q = q₁ ++ ⟨n, false⟩ :: q₂ ∧ size + mblocksize ≤ n ∧
        findFit m top size fuel (base + total p + b.size) (m.header (base + total p)).nextblock.toNat
          = .ok (some (base + total p + total q₁), r')) ∨
        (∀ c ∈ b :: q, c.used = false → c.size < size + mblocksize) ∧
        ∃ r', r' * 2 ^ mblockshift = last 0 (p ++ b :: q) ∧
          findFit m top size fuel (base + total p + b.size) (m.header (base + total p)).nextblock.toNat
            = .ok (none, r') := by
      obtain ⟨q₁, n, q₂, r', rfl, fits, e⟩ | ⟨small, none⟩ := step
      · refine .inl ⟨b :: q₁, n, q₂, r', rfl, fits, ?_⟩
        rw [e, total_cons, ← Nat.add_assoc]
      · refine .inr ⟨fun c mem => ?_, none⟩
        cases List.mem_cons.1 mem with
        | inl h => exact h ▸ pass
        | inr h => exact small c h
    rw [next]
    obtain ⟨n, used⟩ := b
    cases used with
    | true =>
      rw [if_pos (tag.inuse_ne rfl)]
      exact rest Bool.noConfusion
    | false =>
      have data := tag.size (by dsimp only at len ⊢; omega)
      dsimp only at data len
      rw [if_neg (not_not.2 (tag.inuse_eq rfl)), data]
      by_cases small : n - mblocksize < size
      · rw [if_pos small]
        exact rest fun _ => by dsimp only; omega
      · rw [if_neg small]
        exact .inl ⟨[], n, q, _, rfl, by omega, rfl⟩

/-- Two neighbours are merged when both are free. -/
lemma trymerge_spec {n n' : Nat} {u u' : Bool} (bl : Row d m base top (p ++ ⟨n, u⟩ :: ⟨n', u'⟩ :: q)) :
    ((u = true ∨ u' = true) ∧ trymerge m top (base + total p) (base + total p + n) = .ok m) ∨
    (u = false ∧ u' = false ∧ ∃ m', trymerge m top (base + total p) (base + total p + n) = .ok m' ∧
      Row d m' base top (p ++ ⟨n + n', false⟩ :: q) ∧ m'.word (base + total p + n) = 0xdeadbeef ∧
      ∀ x, x < base + total p ∨ base + total p + mblocksize ≤ x →
        x < base + total p + n ∨ base + total p + n + mblocksize ≤ x →
        x < base + total p + (n + n') ∨ base + total p + (n + n') + mblocksize ≤ x → m' x = m x) := by
  obtain ⟨stop, dvd, len⟩ := bl.place
  rw [total_cons] at stop
  dsimp only at stop dvd len
  have eight : mblocksize = 8 := rfl
  have lt := bl.lt
  have tag := bl.tag
  obtain ⟨tag', rest⟩ := bl.rest
  dsimp only at tag' rest
  have dvd' : mblocksize ∣ n' ∧ mblocksize + d ≤ n' := bl.sized ⟨n', u'⟩ (by simp)
  have agree : (m.header (base + total p)).nextblock = (m.header (base + total p + n)).prevblock := by
    apply BitVec.eq_of_toNat_eq
    have eq := tag.nextoff.trans tag'.prevoff.symm
    rw [Mheader.prevoff, Mheader.nextoff] at eq
    exact Nat.eq_of_mul_eq_mul_right (Nat.two_pow_pos _) eq
  rw [trymerge]
  dsimp only
  rw [if_neg (not_not.2 agree)]
  by_cases free : u = true ∨ u' = true
  · left
    exact ⟨free, if_pos (free.imp tag.inuse_ne tag'.inuse_ne)⟩
  · right
    obtain ⟨rfl, rfl⟩ : u = false ∧ u' = false := by
      rw [not_or, Bool.not_eq_true, Bool.not_eq_true] at free
      exact free
    refine ⟨rfl, rfl, ?_⟩
    have data := tag.size (by dsimp only; omega)
    have data' := tag'.size (by dsimp only; omega)
    dsimp only at data data'
    have next : mNext m (base + total p + n) = base + total p + n + n' := tag'.next (by dsimp only; omega)
    have sum : wadd 32 (wadd 32 (wadd 32 mblocksize (n - mblocksize)) mblocksize) (n' - mblocksize) = n + n' := by
      rw [wadd_of_lt (a := mblocksize) (by omega), wadd_of_lt (b := mblocksize) (by omega), wadd_of_lt (by omega)]
      omega
    have field := mkfield_toNat (n + n') (Nat.dvd_add dvd dvd'.1) (by omega)
    have inuse : ¬ ((m.header (base + total p)).inuse ≠ 0 ∨ (m.header (base + total p + n)).inuse ≠ 0) :=
      not_or.2 ⟨not_not.2 (tag.inuse_eq rfl), not_not.2 (tag'.inuse_eq rfl)⟩
    rw [if_neg inuse, next, data, data', sum]
    have tag₁ := tag.setNext field
    have head : ((m.setHeader (base + total p)
        { m.header (base + total p) with nextblock := mMkfield (n + n') }).header (base + total p)).nextblock
        = mMkfield (n + n') := by
      rw [header_setHeader]
    generalize out₁ : m.setHeader _ _ = m₁ at tag₁ head ⊢
    rw [head]
    have same : ∀ x, x < base + total p ∨ base + total p + n ≤ x → m₁ x = m x := by
      intro x h
      rw [← out₁, setHeader_of_ne (by omega)]
    have wq : Sized d q := bl.sized.sub fun b hb => by simp [hb]
    have rest₁ := tags_same wq rest fun x le _ => same x (.inr (by omega))
    have stop₁ : base + total p + n + n' + total q = top := by omega
    obtain ⟨m₂, relink, tags, out₂⟩ := tags_relink wq rest₁ stop₁ field
    refine ⟨_, congrArg (fun m => Except.ok (deadbeef m (base + total p + n) mblocksize)) relink, ?_, word_deadbeef, ?_⟩
    · have w : Sized d [⟨n + n', false⟩] := by
        refine Sized.cons ⟨Nat.dvd_add dvd dvd'.1, by dsimp only; omega⟩ ?_
        exact fun b hb => by cases hb
      refine replace [⟨n, false⟩, ⟨n', false⟩] [⟨n + n', false⟩] bl ?_ w ?_ ⟨?_, ?_⟩
      · simp
      · intro x lt
        rw [deadbeef_of_ne (by omega), out₂ x (by omega), same x (by omega)]
      · refine tag₁.congr fun x le lt => ?_
        rw [deadbeef_of_ne (by omega), out₂ x (by omega)]
      · rw [show base + total p + (⟨n + n', false⟩ : Piece).size = base + total p + n + n' from
          (Nat.add_assoc ..).symm]
        exact tags_same wq tags fun x le _ => deadbeef_of_ne (by omega)
    · intro x h h' h''
      rw [deadbeef_of_ne (by omega), out₂ x (by omega), ← out₁, setHeader_of_ne (by omega)]

/-- The merge of two free neighbours leaves the blocks in use. -/
lemma sameUsed_merge {n n' : Nat} :
    SameUsed base (p ++ ⟨n, false⟩ :: ⟨n', false⟩ :: q) (p ++ ⟨n + n', false⟩ :: q) := by
  refine sameUsed_middle [⟨n, false⟩, ⟨n', false⟩] [⟨n + n', false⟩] (by simp) ?_ ?_ <;> simp

/-- A merge leaves the blocks free that were free, and wipes the header that it makes obsolete. -/
lemma freed_merge {n n' : Nat} (bl : Row d m base top (p ++ ⟨n, false⟩ :: ⟨n', false⟩ :: q))
    (word : m'.word (base + total p + n) = 0xdeadbeef)
    (out : ∀ x, x < base + total p ∨ base + total p + mblocksize ≤ x →
      x < base + total p + n ∨ base + total p + n + mblocksize ≤ x →
      x < base + total p + (n + n') ∨ base + total p + (n + n') + mblocksize ≤ x → m' x = m x)
    {y k : Nat} (header : mblocksize ≤ k) (freed : Freed m base (p ++ ⟨n, false⟩ :: ⟨n', false⟩ :: q) y k) :
    Freed m' base (p ++ ⟨n + n', false⟩ :: q) y k := by
  have eight : mblocksize = 8 := rfl
  have len := bl.place.2.2
  have len' : mblocksize + d ≤ n' := (bl.sized ⟨n', false⟩ (by simp)).2
  dsimp only at len
  have whole : At base (p ++ ⟨n + n', false⟩ :: q) (base + total p) ⟨n + n', false⟩ := at_append.2 (.inr at_middle)
  obtain ⟨z, s, at_, le, fits, mark⟩ := freed
  -- a wiped header in the data of a block is not written
  have kept (lt : ∀ x, y ≤ x → x < y + 4 → m' x = m x) : m.word y = 0xdeadbeef → m'.word y = 0xdeadbeef :=
    fun wiped => (word_congr lt).trans wiped
  rw [at_append, At, At] at at_
  dsimp only at at_
  obtain h | ⟨rfl, e⟩ | ⟨rfl, e⟩ | h := at_
  · have within := h.within.2
    dsimp only at within
    refine ⟨z, s, at_append.2 (.inl h), le, fits, mark.imp_right fun w => ⟨w.1, kept (fun x le lt => ?_) w.2⟩⟩
    exact out x (by omega) (by omega) (by omega)
  · obtain rfl : s = n := congrArg Piece.size e
    refine ⟨_, _, whole, le, by omega, mark.imp_right fun w => ⟨w.1, kept (fun x le lt => ?_) w.2⟩⟩
    exact out x (by omega) (by omega) (by omega)
  · obtain rfl : s = n' := congrArg Piece.size e
    refine ⟨_, _, whole, by omega, by omega, .inr ⟨by omega, ?_⟩⟩
    obtain rfl | w := mark
    · exact word
    · exact kept (fun x le lt => out x (by omega) (by omega) (by omega)) w.2
  · have within := h.within.1
    refine ⟨z, s, at_append.2 (.inr (.inr ?_)), le, fits, mark.imp_right fun w => ⟨w.1, kept (fun x le lt => ?_) w.2⟩⟩
    · dsimp only
      rwa [← Nat.add_assoc]
    · exact out x (by omega) (by omega) (by omega)

/-- "Try merging with the block above (but not if we're at the top)". -/
lemma merge_above {n : Nat} (bl : Row d m base top (p ++ ⟨n, false⟩ :: q)) (co : Coalesced q) :
    ∃ m' n' q', (if base + total p + n ≠ top then trymerge m top (base + total p) (base + total p + n) else .ok m)
        = .ok m' ∧ Row d m' base top (p ++ ⟨n', false⟩ :: q') ∧ Coalesced q' ∧ HeadUsed q' ∧
      SameUsed base (p ++ ⟨n, false⟩ :: q) (p ++ ⟨n', false⟩ :: q') ∧ Kept m m' base (p ++ ⟨n, false⟩ :: q) ∧
      ∀ y k, mblocksize ≤ k → Freed m base (p ++ ⟨n, false⟩ :: q) y k → Freed m' base (p ++ ⟨n', false⟩ :: q') y k := by
  have stop := bl.place.1
  dsimp only at stop
  cases q with
  | nil =>
    have eq : base + total p + n = top := stop
    exact ⟨m, n, [], if_neg (not_not.2 eq), bl, co, nofun, .refl _ _, fun _ _ _ _ _ _ _ => rfl, fun _ _ _ => id⟩
  | cons b q =>
    have size := (bl.sized b (by simp)).2
    have eight : mblocksize = 8 := rfl
    rw [total_cons] at stop
    rw [if_pos (by omega)]
    obtain ⟨n', u'⟩ := b
    obtain ⟨used, e⟩ | ⟨-, rfl, m', e, bl', word, out⟩ := bl.trymerge_spec
    · have used : u' = true := used.resolve_left nofun
      refine ⟨m, n, _, e, bl, co, by rintro b ⟨⟩; exact used, .refl _ _, fun _ _ _ _ _ _ _ => rfl, fun _ _ _ => id⟩
    · have rest := (coalesced_free (p := [])).1 co
      have len := bl.place.2.2
      dsimp only at len size
      have kept : Kept m m' base (p ++ ⟨n + n', false⟩ :: q) :=
        .of_outside fun x h => out x (by omega) (by omega) (by omega)
      exact ⟨m', n + n', q, e, bl', rest.2.1, rest.2.2.2, sameUsed_merge, kept.congr sameUsed_merge.symm,
        fun _ _ => bl.freed_merge word out⟩

/-- "Try merging with the block below (but not if we're at the bottom)". -/
lemma merge_below {n : Nat} (bl : Row d m base top (p ++ ⟨n, false⟩ :: q)) (cop : Coalesced p) (coq : Coalesced q)
    (head : HeadUsed q) :
    ∃ m' l', (if base + total p ≠ base then trymerge m top (mPrev m (base + total p)) (base + total p) else .ok m)
        = .ok m' ∧ Row d m' base top l' ∧ Coalesced l' ∧ SameUsed base (p ++ ⟨n, false⟩ :: q) l' ∧
      Kept m m' base (p ++ ⟨n, false⟩ :: q) ∧
      ∀ y k, mblocksize ≤ k → Freed m base (p ++ ⟨n, false⟩ :: q) y k → Freed m' base l' y k := by
  obtain rfl | ⟨p, b, rfl⟩ := List.eq_nil_or_concat p
  · refine ⟨m, _, if_neg (not_not.2 rfl), bl, coalesced_free.2 ⟨cop, coq, nofun, head⟩, .refl _ _, ?_, fun _ _ _ => id⟩
    exact fun _ _ _ _ _ _ _ => rfl
  · obtain ⟨n₀, u₀⟩ := b
    rw [List.concat_eq_append] at bl cop ⊢
    have tag := bl.tag
    have stop := bl.place.1
    rw [last_concat] at tag
    have total_eq : total (p ++ [⟨n₀, u₀⟩]) = total p + n₀ := by simp
    have size := (bl.sized ⟨n₀, u₀⟩ (by simp)).2
    have eight : mblocksize = 8 := rfl
    have lt := bl.lt
    dsimp only at tag size stop
    rw [total_eq] at tag stop ⊢
    have prev : mPrev m (base + (total p + n₀)) = base + total p := by
      rw [tag.before (by omega) (by omega)]
      omega
    rw [List.append_assoc, List.singleton_append] at bl ⊢
    rw [if_pos (by omega), prev, ← Nat.add_assoc]
    obtain ⟨used, e⟩ | ⟨rfl, -, m', e, bl', word, out⟩ := bl.trymerge_spec
    · have used : u₀ = true := used.resolve_right nofun
      subst used
      refine ⟨m, _, e, bl, ?_, .refl _ _, fun _ _ _ _ _ _ _ => rfl, fun _ _ _ => id⟩
      rw [coalesced_used] at cop ⊢
      exact ⟨cop.1, (coalesced_free (p := [])).2 ⟨cop.2, coq, nofun, head⟩⟩
    · have rest := coalesced_free.1 cop
      have len : mblocksize + d ≤ n := (bl.sized ⟨n, false⟩ (by simp)).2
      have kept : Kept m m' base (p ++ ⟨n₀ + n, false⟩ :: q) :=
        .of_outside fun x h => out x (by omega) (by omega) (by omega)
      exact ⟨m', _, e, bl', coalesced_free.2 ⟨rest.1, coq, rest.2.2.1, head⟩, sameUsed_merge,
        kept.congr sameUsed_merge.symm, fun _ _ => bl.freed_merge word out⟩

/-- The blocks that are free stay so when another one is marked. -/
lemma freed_mark {n : Nat}
    (out : ∀ x, x < base + total p ∨ base + total p + n ≤ x → m' x = m x) {y k : Nat} (header : mblocksize ≤ k)
    (freed : Freed m base (p ++ ⟨n, true⟩ :: q) y k) : Freed m' base (p ++ ⟨n, false⟩ :: q) y k := by
  have eight : mblocksize = 8 := rfl
  obtain ⟨z, s, at_, le, fits, mark⟩ := freed
  have kept (lt : ∀ x, y ≤ x → x < y + 4 → m' x = m x) : m.word y = 0xdeadbeef → m'.word y = 0xdeadbeef :=
    fun wiped => (word_congr lt).trans wiped
  rw [at_append, At] at at_
  obtain h | ⟨-, e⟩ | h := at_
  · have within := h.within.2
    dsimp only at within
    refine ⟨z, s, at_append.2 (.inl h), le, fits, mark.imp_right fun w => ⟨w.1, kept (fun x le lt => ?_) w.2⟩⟩
    exact out x (by omega)
  · cases e
  · have within := h.within.1
    dsimp only at within
    refine ⟨z, s, at_append.2 (.inr (.inr h)), le, fits, mark.imp_right fun w => ⟨w.1, kept (fun x le lt => ?_) w.2⟩⟩
    exact out x (by omega)

/-- A block is freed: the row is coalesced again, the data of the other blocks in use is as before, and those that were
free are. -/
lemma free {n : Nat} (bl : Row d m base top (p ++ ⟨n, true⟩ :: q)) (co : Coalesced (p ++ ⟨n, true⟩ :: q)) :
    ∃ m' l', freeBlock m base top (base + total p) = .ok m' ∧ Row d m' base top l' ∧ Coalesced l' ∧
      SameUsed base (p ++ ⟨n, false⟩ :: q) l' ∧ Kept m m' base (p ++ ⟨n, false⟩ :: q) ∧
      Freed m' base l' (base + total p) n ∧
      ∀ y k, mblocksize ≤ k → Freed m base (p ++ ⟨n, true⟩ :: q) y k → Freed m' base l' y k := by
  obtain ⟨stop, dvd, len⟩ := bl.place
  have eight : mblocksize = 8 := rfl
  have lt := bl.lt
  dsimp only at stop len
  obtain ⟨cop, coq⟩ := coalesced_used.1 co
  rw [freeBlock]
  dsimp only
  have tag := bl.tag.setInuse (v := 0) false rfl
  generalize out : m.setHeader _ _ = m₀ at tag ⊢
  have data := tag.size (by dsimp only; omega)
  have start : mData (base + total p) = base + total p + mblocksize := wadd_of_lt (by omega)
  dsimp only at data
  rw [data, start]
  have same : ∀ x, x < base + total p + mblocksize ∨ base + total p + n ≤ x →
      deadbeef m₀ (base + total p + mblocksize) (n - mblocksize) x = m₀ x := fun x h => deadbeef_of_ne (by omega)
  generalize deadbeef m₀ _ _ = m₁ at same ⊢
  have tag₁ : Tag m₁ (base + total p) (last 0 p) ⟨n, false⟩ := tag.congr fun x le lt => same x (.inl (by omega))
  have frame : ∀ x, x < base + total p ∨ base + total p + n ≤ x → m₁ x = m x := by
    intro x h
    rw [same x (by omega), ← out, setHeader_of_ne (by omega)]
  have bl₁ : Row d m₁ base top (p ++ ⟨n, false⟩ :: q) := bl.mark tag₁ frame
  have kept₁ : Kept m m₁ base (p ++ ⟨n, false⟩ :: q) := Kept.of_outside fun x h => frame x (by omega)
  rw [tag₁.next (by dsimp only; omega)]
  obtain ⟨m₂, n₂, q₂, e₂, bl₂, co₂, head₂, used₂, kept₂, freed₂⟩ := bl₁.merge_above coq
  obtain ⟨m₃, l₃, e₃, bl₃, co₃, used₃, kept₃, freed₃⟩ := bl₂.merge_below cop co₂ head₂
  have merged (y k : Nat) (header : mblocksize ≤ k) (freed : Freed m₁ base (p ++ ⟨n, false⟩ :: q) y k) :
      Freed m₃ base l₃ y k := freed₃ y k header (freed₂ y k header freed)
  refine ⟨m₃, l₃, ?_, bl₃, co₃, used₂.trans used₃, (kept₁.trans kept₂).trans (kept₃.congr used₂.symm),
    merged _ _ (by omega) ⟨_, n, at_append.2 (.inr at_middle), le_rfl, le_rfl, .inl rfl⟩,
    fun y k header freed => merged y k header ?_⟩
  rotate_left
  · exact freed_mark frame header freed
  by_cases above : base + total p + n ≠ top
  · rw [if_pos above] at e₂ ⊢
    rw [e₂]
    exact e₃
  · rw [if_neg above] at e₂ ⊢
    rw [e₂]
    exact e₃

end Row

end Rows

end PDS.Libc
