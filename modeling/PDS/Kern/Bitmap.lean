import PDS.Kern.Machine
import PDS.Lib.BitSet
import Mathlib.Data.Set.Insert
import Mathlib.Order.Lattice.Nat

/-!
# Bitmaps

Port of `kern/lib/bitmap.c`: fixed-size arrays of bits, for storage management. The bits are kept in words of eight;
what is left over of the last word is marked when the bitmap is created, so that `bitmap_alloc` can look at whole words.

`Bitmap.Holds` relates a bitmap to the set of the numbers that are marked. Every operation keeps it, and answers what
the set answers (`bitmapRun_of_holds`).
-/

namespace PDS.Kern
open Word BitSet

/-- Bits in a word (C `BITS_PER_WORD`). -/
def bitsPerWord : Nat := 8

/-- A word with all bits set (C `WORD_ALLBITS`). -/
def wordAllbits : BitVec 8 := 0xff

/-- No space left on device (C `ENOSPC`). -/
def enospc : Nat := 36

/-- Quotient, rounded up (C `DIVROUNDUP`). -/
def divroundup (a b : Nat) : Nat := wsub 32 (wadd 32 a b) 1 / b

/-- C `struct bitmap`, with the words that `v` points to. -/
structure Bitmap where
  nbits : Nat
  v : List (BitVec 8)
deriving DecidableEq

/-- C `b->v[ix]`. What lies past the words is not there to be read. -/
def Bitmap.word (b : Bitmap) (ix : Nat) : Except Halt (BitVec 8) :=
  match b.v[ix]? with
  | none => .error fatalFault
  | some x => .ok x

/-- C `b->v[ix] = x`, for a word that has been read. -/
def Bitmap.setWord (b : Bitmap) (ix : Nat) (x : BitVec 8) : Bitmap := { b with v := b.v.set ix x }

/-- C `bitmap_create`. The flags are the outcomes of the two calls of `kmalloc`. -/
def bitmapCreate (nbits : Nat) (header data : Bool) : Except Halt (Option Bitmap) :=
  let words := divroundup nbits bitsPerWord
  if header = false then .ok none
  else if data = false then .ok none
  else
    let b : Bitmap := ⟨nbits, List.replicate words 0⟩
    -- mark any leftover bits at the end in use
    if nbits / bitsPerWord < words then do
      let ix := wsub 32 words 1
      let overbits := wsub 32 nbits (wmul 32 ix bitsPerWord)
      kassert (nbits / bitsPerWord = wsub 32 words 1) "nbits / BITS_PER_WORD == words-1"
      kassert (0 < overbits ∧ overbits < bitsPerWord) "overbits > 0 && overbits < BITS_PER_WORD"
      let x ← b.word ix
      .ok (some (b.setWord ix (setFrom x overbits)))
    else .ok (some b)

/-- The loop of `bitmap_alloc`, from the word `ix` on. -/
def bitmapAllocFrom (b : Bitmap) (maxix ix : Nat) : Except Halt (Except Nat Nat × Bitmap) :=
  if ix < maxix then do
    let x ← b.word ix
    if x ≠ wordAllbits then
      match clearBit x with
      | some offset => do
        let index := wadd 32 (wmul 32 ix bitsPerWord) offset
        kassert (index < b.nbits) "*index < b->nbits"
        .ok (.ok index, b.setWord ix (x ||| mask 8 offset))
      | none => .error (.kassert "0")
    else bitmapAllocFrom b maxix (ix + 1)
  else .ok (.error enospc, b)
termination_by maxix - ix

/-- C `bitmap_alloc`: the index, or an error code. -/
def bitmapAlloc (b : Bitmap) : Except Halt (Except Nat Nat × Bitmap) :=
  bitmapAllocFrom b (divroundup b.nbits bitsPerWord) 0

/-- The word and the mask of a bit (C `bitmap_translate`). -/
def bitmapTranslate (bitno : Nat) : Nat × BitVec 8 := (bitno / bitsPerWord, mask 8 (bitno % bitsPerWord))

/-- C `bitmap_mark`. -/
def bitmapMark (b : Bitmap) (index : Nat) : Except Halt Bitmap := do
  kassert (index < b.nbits) "index < b->nbits"
  let (ix, mask) := bitmapTranslate index
  let x ← b.word ix
  kassert (x &&& mask = 0) "(b->v[ix] & mask)==0"
  .ok (b.setWord ix (x ||| mask))

/-- C `bitmap_unmark`. -/
def bitmapUnmark (b : Bitmap) (index : Nat) : Except Halt Bitmap := do
  kassert (index < b.nbits) "index < b->nbits"
  let (ix, mask) := bitmapTranslate index
  let x ← b.word ix
  kassert (x &&& mask ≠ 0) "(b->v[ix] & mask)!=0"
  .ok (b.setWord ix (x &&& ~~~ mask))

/-- C `bitmap_isset`: the bit, in its place in the word. -/
def bitmapIsset (b : Bitmap) (index : Nat) : Except Halt Nat := do
  let (ix, mask) := bitmapTranslate index
  let x ← b.word ix
  .ok (x &&& mask).toNat

/-- A call on a bitmap. -/
inductive BitmapOp where
  | alloc
  | mark (index : Nat)
  | unmark (index : Nat)
  | isset (index : Nat)

/-- What a call returns. -/
inductive BitmapRet where
  /-- `bitmap_alloc` returns `0` and the index, or an error code. -/
  | alloc (r : Except Nat Nat)
  | void
  /-- `bitmap_isset` returns zero or not. -/
  | isset (set : Bool)

/-- One call. -/
def bitmapStep (b : Bitmap) : BitmapOp → Except Halt (BitmapRet × Bitmap)
  | .alloc => do
    let (r, b) ← bitmapAlloc b
    .ok (.alloc r, b)
  | .mark index => do
    let b ← bitmapMark b index
    .ok (.void, b)
  | .unmark index => do
    let b ← bitmapUnmark b index
    .ok (.void, b)
  | .isset index => do
    let bit ← bitmapIsset b index
    .ok (.isset (bit ≠ 0), b)

/-- Calls one after the other. -/
def bitmapRun (b : Bitmap) : List BitmapOp → Except Halt (List BitmapRet × Bitmap)
  | [] => .ok ([], b)
  | op :: ops => do
    let (r, b) ← bitmapStep b op
    let (rs, b) ← bitmapRun b ops
    .ok (r :: rs, b)

section
open Classical

/-- What a call means for the set of the numbers below `nbits` that are marked. -/
noncomputable def setStep (nbits : Nat) (marked : Set Nat) : BitmapOp → BitmapRet × Set Nat
  | .alloc =>
    if ∀ i < nbits, i ∈ marked then (.alloc (.error enospc), marked)
    else (.alloc (.ok (sInf markedᶜ)), insert (sInf markedᶜ) marked)
  | .mark index => (.void, insert index marked)
  | .unmark index => (.void, marked \ {index})
  | .isset index => (.isset (decide (index ∈ marked)), marked)

/-- What a sequence of calls means for the set. -/
noncomputable def setRun (nbits : Nat) (marked : Set Nat) : List BitmapOp → List BitmapRet × Set Nat
  | [] => ([], marked)
  | op :: ops =>
    let (r, marked) := setStep nbits marked op
    let (rs, marked) := setRun nbits marked ops
    (r :: rs, marked)

end

/-- What the caller of an operation has to see to. -/
def Allowed (nbits : Nat) (marked : Set Nat) : BitmapOp → Prop
  | .alloc => True
  | .mark index => index < nbits ∧ index ∉ marked
  | .unmark index => index < nbits ∧ index ∈ marked
  | .isset index => index < nbits

/-- Every call of the sequence is allowed when its turn comes. -/
def AllAllowed (nbits : Nat) (marked : Set Nat) : List BitmapOp → Prop
  | [] => True
  | op :: ops => Allowed nbits marked op ∧ AllAllowed nbits (setStep nbits marked op).2 ops

/-- The bitmap has marked the numbers in the set, and those past its end. -/
structure Bitmap.Holds (b : Bitmap) (nbits : Nat) (marked : Set Nat) : Prop where
  size : b.nbits = nbits
  words : b.v.length = (nbits + 7) / 8
  mem : ∀ i < b.v.length * 8, Mem b.v i ↔ nbits ≤ i ∨ i ∈ marked
  below : ∀ i ∈ marked, i < nbits

variable {nbits : Nat} {marked : Set Nat} {b : Bitmap}

/-- The words for `nbits` bits, where nothing wraps. -/
lemma divroundup_of_lt (fits : nbits + 7 < 2 ^ 32) : divroundup nbits bitsPerWord = (nbits + 7) / 8 := by
  have minus : wsub 32 (wadd 32 nbits 8) 1 = nbits + 7 := by
    rw [wsub, wadd]
    omega
  rw [divroundup, bitsPerWord, minus]

/-- A word of the bitmap is read. -/
lemma Bitmap.word_of_lt {ix : Nat} (lt : ix < b.v.length) : ∃ x, b.v[ix]? = some x ∧ b.word ix = .ok x := by
  refine ⟨b.v[ix], List.getElem?_eq_getElem lt, ?_⟩
  rw [Bitmap.word, List.getElem?_eq_getElem lt]

/-- A bit has a word. -/
lemma Bitmap.Holds.inside (h : b.Holds nbits marked) {i : Nat} (lt : i < nbits) : i < b.v.length * 8 := by
  rw [h.words]
  omega

/-- A bit is set if it is marked. -/
lemma Bitmap.Holds.mem_iff (h : b.Holds nbits marked) {i : Nat} (lt : i < nbits) : Mem b.v i ↔ i ∈ marked :=
  (h.mem i (h.inside lt)).trans (or_iff_right lt.not_ge)

/-- The word of a number of the set, and its bit. -/
lemma Bitmap.Holds.word (h : b.Holds nbits marked) {i : Nat} (lt : i < nbits) :
    ∃ x, b.v[i / 8]? = some x ∧ b.word (i / 8) = .ok x ∧ (x.getLsbD (i % 8) = true ↔ i ∈ marked) := by
  have inside := h.inside lt
  have lt' : i / 8 < b.v.length := by omega
  obtain ⟨x, word, read⟩ := Bitmap.word_of_lt lt'
  refine ⟨x, word, read, ?_⟩
  rw [← mem_of_word word (Nat.mod_lt _ (by decide)), Nat.div_add_mod', h.mem_iff lt]

/-- A number is put into the set. -/
lemma Bitmap.Holds.mark (h : b.Holds nbits marked) {ix offset : Nat} {x : BitVec 8} (word : b.v[ix]? = some x)
    (small : offset < 8) (lt : ix * 8 + offset < nbits) :
    (b.setWord ix (x ||| mask 8 offset)).Holds nbits (insert (ix * 8 + offset) marked) := by
  refine ⟨h.size, List.length_set.trans h.words, ?_, ?_⟩
  · intro i inside
    rw [Bitmap.setWord, List.length_set] at inside
    rw [Bitmap.setWord, mem_mark word small, h.mem i inside, Set.mem_insert_iff, or_left_comm]
  · intro i mem
    cases mem with
    | inl eq => exact eq ▸ lt
    | inr mem => exact h.below i mem

/-- A number is taken out of the set. -/
lemma Bitmap.Holds.unmark (h : b.Holds nbits marked) {ix offset : Nat} {x : BitVec 8} (word : b.v[ix]? = some x)
    (small : offset < 8) (lt : ix * 8 + offset < nbits) :
    (b.setWord ix (x &&& ~~~ mask 8 offset)).Holds nbits (marked \ {ix * 8 + offset}) := by
  refine ⟨h.size, List.length_set.trans h.words, ?_, fun i mem => h.below i mem.1⟩
  intro i inside
  rw [Bitmap.setWord, List.length_set] at inside
  rw [Bitmap.setWord, mem_unmark word small, h.mem i inside, Set.mem_sdiff, Set.mem_singleton_iff]
  constructor
  · rintro ⟨ne, past | mem⟩
    · exact .inl past
    · exact .inr ⟨mem, ne⟩
  · rintro (past | ⟨mem, ne⟩)
    · exact ⟨fun eq => absurd lt (eq ▸ past).not_gt, .inl past⟩
    · exact ⟨ne, .inr mem⟩

/-- `bitmap_mark` marks a clear bit. -/
lemma bitmapMark_of_holds (h : b.Holds nbits marked) {index : Nat} (lt : index < nbits) (clear : index ∉ marked) :
    ∃ b', bitmapMark b index = .ok b' ∧ b'.Holds nbits (insert index marked) := by
  obtain ⟨x, word, read, bit⟩ := h.word lt
  have small : index % 8 < 8 := Nat.mod_lt _ (by decide)
  have whole : index / 8 * 8 + index % 8 = index := Nat.div_add_mod' _ _
  refine ⟨_, ?_, whole ▸ h.mark word small (by rwa [whole])⟩
  rw [bitmapMark, kassert_pos (h.size ▸ lt), ok_bind, bitmapTranslate]
  dsimp only
  rw [bitsPerWord, read, ok_bind, kassert_pos, ok_bind]
  rw [and_mask_eq_zero small, ← Bool.not_eq_true, bit]
  exact clear

/-- `bitmap_unmark` clears a marked bit. -/
lemma bitmapUnmark_of_holds (h : b.Holds nbits marked) {index : Nat} (lt : index < nbits) (set : index ∈ marked) :
    ∃ b', bitmapUnmark b index = .ok b' ∧ b'.Holds nbits (marked \ {index}) := by
  obtain ⟨x, word, read, bit⟩ := h.word lt
  have small : index % 8 < 8 := Nat.mod_lt _ (by decide)
  have whole : index / 8 * 8 + index % 8 = index := Nat.div_add_mod' _ _
  refine ⟨_, ?_, whole ▸ h.unmark word small (by rwa [whole])⟩
  rw [bitmapUnmark, kassert_pos (h.size ▸ lt), ok_bind, bitmapTranslate]
  dsimp only
  rw [bitsPerWord, read, ok_bind, kassert_pos, ok_bind]
  rw [Ne, and_mask_eq_zero small, Bool.not_eq_false, bit]
  exact set

/-- `bitmap_isset` says whether a bit is marked. -/
lemma bitmapIsset_of_holds (h : b.Holds nbits marked) {index : Nat} (lt : index < nbits) :
    ∃ bit, bitmapIsset b index = .ok bit ∧ (bit ≠ 0 ↔ index ∈ marked) := by
  obtain ⟨x, -, read, bit⟩ := h.word lt
  have small : index % 8 < 8 := Nat.mod_lt _ (by decide)
  refine ⟨(x &&& mask 8 (index % 8)).toNat, ?_, ?_⟩
  · rw [bitmapIsset, bitmapTranslate]
    dsimp only
    rw [bitsPerWord, read, ok_bind]
  · rw [← bit, ← Bool.not_eq_false, ← and_mask_eq_zero small, Ne, ← BitVec.toNat_inj]
    rfl

/-- The scan from a word with only full words before it. -/
lemma bitmapAllocFrom_of_holds (fits : nbits + 7 < 2 ^ 32) (h : b.Holds nbits marked) {ix : Nat}
    (le : ix ≤ b.v.length) (before : ∀ i < ix * 8, Mem b.v i) :
    ((∀ i < nbits, i ∈ marked) ∧ bitmapAllocFrom b b.v.length ix = .ok (.error enospc, b)) ∨
      ∃ index b', bitmapAllocFrom b b.v.length ix = .ok (.ok index, b') ∧ index < nbits ∧ index ∉ marked ∧
        (∀ i < index, i ∈ marked) ∧ b'.Holds nbits (insert index marked) := by
  induction eq : b.v.length - ix generalizing ix with
  | zero =>
    have last : ix = b.v.length := by omega
    refine .inl ⟨?_, ?_⟩
    · intro i lt
      exact (h.mem_iff lt).1 (before i (last ▸ h.inside lt))
    · rw [bitmapAllocFrom, if_neg (by omega)]
  | succ n ih =>
    have lt : ix < b.v.length := by omega
    obtain ⟨x, word, read⟩ := Bitmap.word_of_lt lt
    rw [bitmapAllocFrom, if_pos lt, read, ok_bind]
    cases found : clearBit x with
    | none =>
      have full : x = BitVec.allOnes 8 := clearBit_eq_none.1 found
      rw [if_neg (not_not.2 (show x = wordAllbits from full))]
      exact ih (by omega) (mem_of_full (full ▸ word) before) (by omega)
    | some offset =>
      have small := (clearBit_eq_some.1 found).1
      have ne : x ≠ wordAllbits := by
        intro full
        rw [clearBit_eq_none.2 full] at found
        cases found
      obtain ⟨out, below⟩ := least_of_clearBit word found before
      have inside : ix * 8 + offset < b.v.length * 8 := by omega
      rw [h.mem _ inside, not_or, Nat.not_le] at out
      have index : wadd 32 (wmul 32 ix bitsPerWord) offset = ix * 8 + offset := by
        have := h.words
        rw [bitsPerWord, wmul_of_lt (by omega), wadd_of_lt (by omega)]
      refine .inr ⟨ix * 8 + offset, _, ?_, out.1, out.2, ?_, h.mark word small out.1⟩
      · rw [if_pos ne]
        dsimp only
        rw [index, kassert_pos (h.size ▸ out.1), ok_bind]
      · intro i lt'
        exact (h.mem_iff (lt'.trans out.1)).1 (below i lt')

/-- An index that is handed out is below the size. -/
def BitmapRet.Inside (nbits : Nat) : BitmapRet → Prop
  | .alloc (.ok index) => index < nbits
  | _ => True

/-- The least number that is not in the set is allocated. -/
lemma bitmapAlloc_of_holds (fits : nbits + 7 < 2 ^ 32) (h : b.Holds nbits marked) :
    ∃ b', bitmapStep b .alloc = .ok ((setStep nbits marked .alloc).1, b') ∧
      b'.Holds nbits (setStep nbits marked .alloc).2 ∧ (setStep nbits marked .alloc).1.Inside nbits := by
  have words : divroundup b.nbits bitsPerWord = b.v.length := by
    rw [h.size, h.words, divroundup_of_lt fits]
  have scan := bitmapAllocFrom_of_holds fits h (Nat.zero_le _) fun i lt => absurd lt (by omega)
  rw [bitmapStep, bitmapAlloc, words]
  rcases scan with ⟨full, eq⟩ | ⟨index, b', eq, lt, out, below, holds⟩
  · rw [setStep, if_pos full, eq]
    exact ⟨b, rfl, h, trivial⟩
  · have least : sInf markedᶜ = index := by
      refine le_antisymm (Nat.sInf_le out) ?_
      by_contra gt
      exact Nat.sInf_mem (s := markedᶜ) ⟨index, out⟩ (below _ (Nat.lt_of_not_le gt))
    rw [setStep, if_neg fun full => out (full index lt), least, eq]
    exact ⟨b', rfl, holds, lt⟩

/-- One call keeps the bitmap and the set together. -/
lemma bitmapStep_of_holds (fits : nbits + 7 < 2 ^ 32) (h : b.Holds nbits marked) {op : BitmapOp}
    (allowed : Allowed nbits marked op) :
    ∃ b', bitmapStep b op = .ok ((setStep nbits marked op).1, b') ∧ b'.Holds nbits (setStep nbits marked op).2 ∧
      (setStep nbits marked op).1.Inside nbits := by
  cases op with
  | alloc => exact bitmapAlloc_of_holds fits h
  | mark index =>
    obtain ⟨b', run, holds⟩ := bitmapMark_of_holds h allowed.1 allowed.2
    refine ⟨b', ?_, holds, trivial⟩
    rw [bitmapStep, run]
    rfl
  | unmark index =>
    obtain ⟨b', run, holds⟩ := bitmapUnmark_of_holds h allowed.1 allowed.2
    refine ⟨b', ?_, holds, trivial⟩
    rw [bitmapStep, run]
    rfl
  | isset index =>
    obtain ⟨bit, run, iff⟩ := bitmapIsset_of_holds h allowed
    refine ⟨b, ?_, h, trivial⟩
    rw [bitmapStep, run, ok_bind, setStep, decide_eq_decide.2 iff]

/-- Any sequence of calls, by induction. -/
lemma bitmapRun_of_holds (fits : nbits + 7 < 2 ^ 32) (h : b.Holds nbits marked) {ops : List BitmapOp}
    (allowed : AllAllowed nbits marked ops) :
    ∃ b', bitmapRun b ops = .ok ((setRun nbits marked ops).1, b') ∧ b'.Holds nbits (setRun nbits marked ops).2 ∧
      ∀ r ∈ (setRun nbits marked ops).1, r.Inside nbits := by
  induction ops generalizing b marked with
  | nil => exact ⟨b, rfl, h, nofun⟩
  | cons op ops ih =>
    obtain ⟨b₁, step, holds, inside⟩ := bitmapStep_of_holds fits h allowed.1
    obtain ⟨b₂, run, holds, rest⟩ := ih holds allowed.2
    refine ⟨b₂, ?_, holds, List.forall_mem_cons.2 ⟨inside, rest⟩⟩
    rw [bitmapRun, step, ok_bind]
    dsimp only
    rw [run]
    rfl

/-- A new bitmap is the empty set. -/
lemma bitmapCreate_holds (fits : nbits + 7 < 2 ^ 32) :
    ∃ b, bitmapCreate nbits true true = .ok (some b) ∧ b.Holds nbits ∅ := by
  have words := divroundup_of_lt fits
  rw [bitmapCreate, words, if_neg (by decide), if_neg (by decide)]
  dsimp only
  split_ifs with more
  · rw [bitsPerWord] at more ⊢
    have last : wsub 32 ((nbits + 7) / 8) 1 = nbits / 8 := by
      rw [wsub_of_le (by omega) (by omega)]
      omega
    have rest : wsub 32 nbits (wmul 32 (nbits / 8) 8) = nbits % 8 := by
      rw [wmul_of_lt (by omega), wsub_of_le (by omega) (by omega)]
      omega
    have word : (List.replicate ((nbits + 7) / 8) (0 : BitVec 8))[nbits / 8]? = some 0 := by
      rw [List.getElem?_replicate, if_pos more]
    rw [last, rest, kassert_pos rfl, ok_bind, kassert_pos (by omega), ok_bind, Bitmap.word]
    dsimp only
    rw [word]
    refine ⟨_, rfl, rfl, ?_, ?_, nofun⟩
    · rw [Bitmap.setWord, List.length_set, List.length_replicate]
    · intro i inside
      rw [Bitmap.setWord, List.length_set, List.length_replicate] at inside
      rw [Bitmap.setWord, Mem]
      by_cases eq : i / 8 = nbits / 8
      · rw [eq, List.getElem?_set_self (by rwa [List.length_replicate]), Option.getD_some,
          getLsbD_setFrom _ (Nat.mod_lt _ (by decide)),
          show BitVec.getLsbD 0 (i % 8) = false from BitVec.getLsbD_zero, Bool.false_or, decide_eq_true_iff,
          or_iff_left (Set.notMem_empty i)]
        omega
      · rw [List.getElem?_set_ne (Ne.symm eq)]
        refine iff_of_false (not_mem_zero _ i) ?_
        rw [or_iff_left (Set.notMem_empty i)]
        omega
  · rw [bitsPerWord] at more
    refine ⟨_, rfl, rfl, List.length_replicate, ?_, nofun⟩
    intro i inside
    rw [List.length_replicate] at inside
    refine iff_of_false (not_mem_zero _ i) ?_
    rw [or_iff_left (Set.notMem_empty i)]
    omega

/-- A bitmap is a set of numbers below its size: whatever is called on it, no assertion fails, the answers are those of
the set, and every index that is handed out is below the size. -/
theorem bitmap_refines_set (fits : nbits + 7 < 2 ^ 32) {header data : Bool} :
    (∃ r, bitmapCreate nbits header data = .ok r) ∧
      ∀ b, bitmapCreate nbits header data = .ok (some b) → ∀ ops, AllAllowed nbits ∅ ops →
        ∃ b', bitmapRun b ops = .ok ((setRun nbits ∅ ops).1, b') ∧
          (∀ index < nbits, ∃ bit, bitmapIsset b' index = .ok bit ∧ (bit ≠ 0 ↔ index ∈ (setRun nbits ∅ ops).2)) ∧
          ∀ index, .alloc (.ok index) ∈ (setRun nbits ∅ ops).1 → index < nbits := by
  obtain ⟨b₀, create, holds⟩ := bitmapCreate_holds fits
  cases header with
  | false => exact ⟨⟨none, rfl⟩, fun b new => nomatch new⟩
  | true =>
    cases data with
    | false => exact ⟨⟨none, rfl⟩, fun b new => nomatch new⟩
    | true =>
      refine ⟨⟨some b₀, create⟩, ?_⟩
      intro b new ops allowed
      cases new.symm.trans create
      obtain ⟨b', run, holds, inside⟩ := bitmapRun_of_holds fits holds allowed
      exact ⟨b', run, fun index lt => bitmapIsset_of_holds holds lt, fun index mem => inside _ mem⟩

/-- A bitmap of nine bits: one is marked, two are handed out, and one is given back. -/
theorem bitmap_refines_set_nine :
    ∃ b', bitmapRun ⟨9, [0, 254]⟩ [.mark 0, .alloc, .isset 1, .unmark 0] =
      .ok ((setRun 9 ∅ [.mark 0, .alloc, .isset 1, .unmark 0]).1, b') := by
  have create : bitmapCreate 9 true true = .ok (some ⟨9, [0, 254]⟩) := by decide
  have allowed : AllAllowed 9 ∅ [.mark 0, .alloc, .isset 1, .unmark 0] := by
    refine ⟨⟨by decide, Set.notMem_empty 0⟩, trivial, show 1 < 9 by decide, ⟨by decide, ?_⟩, trivial⟩
    show (0 : Nat) ∈ (setStep 9 (insert 0 ∅) .alloc).2
    rw [setStep]
    split_ifs
    · exact Set.mem_insert 0 ∅
    · exact Set.mem_insert_of_mem _ (Set.mem_insert 0 ∅)
  obtain ⟨b', run, -⟩ := (bitmap_refines_set (by decide)).2 _ create _ allowed
  exact ⟨b', run⟩

end PDS.Kern
