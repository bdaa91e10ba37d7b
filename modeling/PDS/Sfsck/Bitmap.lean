import PDS.Sfsck.Frame
import PDS.Lib.BitSet

/-!
# The bitmap of the checker

Port of `bitmap_init`, `bitmap_mark` and `check_bitmap` of `user/sbin/sfsck/sfsck.c` with the arrays `bitmapdata` and
`tofreedata` as arrays of bytes. `Check` has functions from block numbers in their place: `Maps.toCheck` is the
connection, and `markByte_run` and `checkMap_refines` say that the functions on bytes do what those on `Check` do.
-/

namespace PDS.Sfsck
open Sfs Word BitSet

/-- The arrays of the checker. -/
structure Maps where
  /-- the disk and the other static variables; the maps of block numbers in it are not used -/
  vars : Check
  bitmapdata : List (BitVec 8)
  tofreedata : List (BitVec 8)

/-- A function on the arrays. -/
abbrev MapsM := Prog Stop Nat Maps

/-- A function that does not use the arrays. -/
def onVars {α : Type} (m : CheckM α) : MapsM α := fun s =>
  match m s.vars with
  | .error h => .error h
  | .ok (r, vars) => .ok (r, { s with vars := vars })

/-- Reads a byte of an array. -/
def load (data : List (BitVec 8)) (index : Nat) : MapsM (BitVec 8) :=
  match data[index]? with
  | none => Prog.halt .fault
  | some x => pure x

/-- C `bitmap_init`. -/
def bitmapInit : MapsM Unit := do
  let s ← Prog.get
  let mapsize := 512 * s.vars.bitblocks
  Prog.modify fun s => { s with bitmapdata := List.replicate mapsize 0, tofreedata := List.replicate mapsize 0 }

/-- C `bitmap_mark`. -/
def markByte (block : Nat) (how : Blockusage) : MapsM Unit := do
  let s ← Prog.get
  let index := block / 8
  let mask := mask 8 (block % 8)
  let tofree ← load s.tofreedata index
  let found ← load s.bitmapdata index
  if how = .tofree then
    if tofree &&& mask ≠ 0 then pure ()
    else if found &&& mask ≠ 0 then pure ()
    else Prog.modify fun s => { s with tofreedata := s.tofreedata.set index (tofree ||| mask) }
  else do
    Prog.when (tofree &&& mask ≠ 0) do
      Prog.modify fun s => { s with tofreedata := s.tofreedata.set index (tofree &&& ~~~ mask) }
    Prog.when (found &&& mask ≠ 0) (onVars (setbadness exitUnrecov))
    Prog.modify fun s => { s with bitmapdata := s.bitmapdata.set index (found ||| mask) }

/-- A sequence of calls of `bitmap_mark`. -/
def markBytes : List (Nat × Blockusage) → MapsM Unit
  | [] => pure ()
  | (block, how) :: marks => do
    markByte block how
    markBytes marks

/-- The variables of `check_bitmap`. -/
structure MapCheck where
  bits : Block
  bchanged : Bool
  alloccount : Nat
  freecount : Nat

/-- The body of the loop of `check_bitmap` over the bytes of the block `i` of the bitmap. -/
def checkMapByte (i : Nat) (v : MapCheck) (j : Fin 512) : MapsM MapCheck := do
  let s ← Prog.get
  let found ← load s.bitmapdata (512 * i + j.val)
  let tofree ← load s.tofreedata (512 * i + j.val)
  let found := UInt8.ofBitVec found
  let tofree := UInt8.ofBitVec tofree
  -- "we shouldn't have blocks marked both ways"
  Prog.require (found &&& tofree = 0) (.assertion "(found[j] & tofree[j])==0")
  if v.bits j = found then pure v
  else if v.bits j = found ||| tofree then
    pure { v with bits := Function.update v.bits j found, bchanged := true }
  else
    -- "free the ones we're freeing"
    let freed := v.bits j &&& ~~~ tofree
    -- "are we short any?"
    let alloccount :=
      if freed &&& found ≠ found then v.alloccount + countbits (found &&& ~~~ freed) else v.alloccount
    -- "do we have any extra?"
    let freecount :=
      if freed &&& found ≠ freed then v.freecount + countbits (freed &&& ~~~ found) else v.freecount
    pure ⟨Function.update v.bits j found, true, alloccount, freecount⟩

/-- The loop of `check_bitmap` over the bytes of the block `i` of the bitmap. -/
def checkMapBytes (i : Nat) : List (Fin 512) → MapCheck → MapsM MapCheck
  | [], v => pure v
  | j :: rest, v => do
    let v ← checkMapByte i v j
    checkMapBytes i rest v

/-- The loop of `check_bitmap` over the blocks of the bitmap, from `i` on, with `alloccount` and `freecount`. -/
def checkMapFrom : Nat → Nat → Nat × Nat → MapsM (Nat × Nat)
  | 0, _, counts => pure counts
  | n + 1, i, counts => do
    let bits ← onVars (diskread (2 + i))
    let v ← checkMapBytes i (List.finRange 512) ⟨bits, false, counts.1, counts.2⟩
    Prog.when v.bchanged (onVars (diskwrite v.bits (2 + i)))
    checkMapFrom n (i + 1) (v.alloccount, v.freecount)

/-- C `check_bitmap`. -/
def checkMap : MapsM Unit := do
  let s ← Prog.get
  let counts ← checkMapFrom s.vars.bitblocks 0 (0, 0)
  Prog.when (counts.1 > 0) (onVars (setbadness exitRecov))
  Prog.when (counts.2 > 0) (onVars (setbadness exitRecov))

/-- The set of blocks that an array stands for. -/
abbrev bitsOf (data : List (BitVec 8)) (n : Nat) : Bool := decide (Mem data n)

/-- The state with the sets of blocks that the arrays stand for. -/
def Maps.toCheck (s : Maps) : Check :=
  { s.vars with bitmapdata := bitsOf s.bitmapdata, tofreedata := bitsOf s.tofreedata }

/-- There is a bit for every block of the bitmap. -/
structure Maps.Sized (s : Maps) : Prop where
  found : s.bitmapdata.length = 512 * s.vars.bitblocks
  tofree : s.tofreedata.length = 512 * s.vars.bitblocks

/-- A byte of the array is read. -/
lemma load_of_lt {data : List (BitVec 8)} {index : Nat} (h : index < data.length) :
    ∃ x, data[index]? = some x ∧ load data index = pure x := by
  have get : data[index]? = some data[index] := List.getElem?_eq_getElem h
  exact ⟨data[index], get, by rw [load, get]⟩

/-- The test of a bit says whether the block is in the set. -/
lemma and_mask_iff {data : List (BitVec 8)} {block : Nat} {x : BitVec 8} (word : data[block / 8]? = some x) :
    x &&& mask 8 (block % 8) ≠ 0 ↔ Mem data block := by
  have lt : block % 8 < 8 := Nat.mod_lt _ (by decide)
  rw [Ne, and_mask_eq_zero lt, Bool.not_eq_false, ← mem_of_word word lt, Nat.div_add_mod']

/-- Setting a bit adds the block. -/
lemma bitsOf_mark {data : List (BitVec 8)} {block : Nat} {x : BitVec 8} (word : data[block / 8]? = some x) :
    bitsOf (data.set (block / 8) (x ||| mask 8 (block % 8))) = Function.update (bitsOf data) block true := by
  funext n
  have lt : block % 8 < 8 := Nat.mod_lt _ (by decide)
  by_cases h : n = block
  · subst h
    rw [Function.update_self]
    exact decide_eq_true ((mem_mark word lt).2 (.inl (Nat.div_add_mod' n 8).symm))
  · rw [Function.update_of_ne h]
    refine decide_eq_decide.2 ((mem_mark word lt).trans (or_iff_right ?_))
    rwa [Nat.div_add_mod']

/-- Clearing a bit removes the block. -/
lemma bitsOf_unmark {data : List (BitVec 8)} {block : Nat} {x : BitVec 8} (word : data[block / 8]? = some x) :
    bitsOf (data.set (block / 8) (x &&& ~~~ mask 8 (block % 8))) = Function.update (bitsOf data) block false := by
  funext n
  have lt : block % 8 < 8 := Nat.mod_lt _ (by decide)
  by_cases h : n = block
  · subst h
    rw [Function.update_self]
    exact decide_eq_false fun mem => ((mem_unmark word lt).1 mem).1 (Nat.div_add_mod' n 8).symm
  · rw [Function.update_of_ne h]
    refine decide_eq_decide.2 ((mem_unmark word lt).trans (and_iff_right ?_))
    rwa [Nat.div_add_mod']

/-- Removing a block that is not there changes nothing. -/
lemma update_bitsOf {data : List (BitVec 8)} {block : Nat} (h : ¬ Mem data block) :
    Function.update (bitsOf data) block false = bitsOf data :=
  Function.update_eq_self_iff.2 (decide_eq_false h).symm

/-- Marking a block to be freed. -/
lemma Check.mark_tofree (c : Check) (block : Nat) :
    c.mark block .tofree =
      if c.tofreedata block ∨ c.bitmapdata block then c
      else { c with tofreedata := Function.update c.tofreedata block true } := rfl

/-- Marking a block in use. -/
lemma Check.mark_used (c : Check) (block : Nat) {how : Blockusage} (h : how ≠ .tofree) :
    c.mark block how =
      { c with
        tofreedata := Function.update c.tofreedata block false
        badness := if c.bitmapdata block then max c.badness exitUnrecov else c.badness
        bitmapdata := Function.update c.bitmapdata block true } := by
  cases how with
  | tofree => exact absurd rfl h
  | _ => rfl

/-- A block that is in use is not to be freed. -/
lemma whenTofree_run (s : Maps) {block : Nat} {x : BitVec 8} (word : s.tofreedata[block / 8]? = some x) :
    ∃ data, Prog.when (x &&& mask 8 (block % 8) ≠ 0) (Prog.modify fun s : Maps =>
        { s with tofreedata := s.tofreedata.set (block / 8) (x &&& ~~~ mask 8 (block % 8)) } : MapsM Unit) s =
          .ok (.ok (), { s with tofreedata := data }) ∧
      data.length = s.tofreedata.length ∧ bitsOf data = Function.update (bitsOf s.tofreedata) block false := by
  by_cases already : x &&& mask 8 (block % 8) ≠ 0
  · rw [Prog.when, if_pos already]
    exact ⟨_, rfl, List.length_set, bitsOf_unmark word⟩
  · rw [Prog.when, if_neg already]
    exact ⟨s.tofreedata, rfl, rfl, (update_bitsOf fun mem => already ((and_mask_iff word).2 mem)).symm⟩

/-- A block that is in use twice is reported. -/
lemma whenUsed_run (s : Maps) {block : Nat} {x : BitVec 8} (word : s.bitmapdata[block / 8]? = some x) :
    Prog.when (x &&& mask 8 (block % 8) ≠ 0) (onVars (setbadness exitUnrecov)) s =
      .ok (.ok (), { s with vars := { s.vars with
        badness := if bitsOf s.bitmapdata block then max s.vars.badness exitUnrecov else s.vars.badness } }) := by
  by_cases already : x &&& mask 8 (block % 8) ≠ 0
  · have mem : bitsOf s.bitmapdata block = true := decide_eq_true ((and_mask_iff word).1 already)
    rw [Prog.when, if_pos already, mem, if_pos rfl]
    show Except.ok (Except.ok (), { s with vars := if s.vars.badness < exitUnrecov then _ else _ }) = _
    split_ifs with less
    · rw [max_eq_right less.le]
    · rw [max_eq_left (not_lt.1 less)]
  · have mem : bitsOf s.bitmapdata block = false := decide_eq_false fun mem => already ((and_mask_iff word).2 mem)
    rw [Prog.when, if_neg already, mem, if_neg Bool.false_ne_true]
    rfl

/-- `bitmap_mark` on the arrays marks the block in the sets. -/
lemma markByte_run {s : Maps} (sized : s.Sized) {block : Nat} (lt : block < 4096 * s.vars.bitblocks)
    (how : Blockusage) :
    ∃ s', markByte block how s = .ok (.ok (), s') ∧ s'.toCheck = s.toCheck.mark block how ∧ s'.Sized := by
  have inFound : block / 8 < s.bitmapdata.length := by
    rw [sized.found]
    omega
  have inTofree : block / 8 < s.tofreedata.length := by
    rw [sized.tofree]
    omega
  obtain ⟨x, found, loadFound⟩ := load_of_lt inFound
  obtain ⟨y, tofree, loadTofree⟩ := load_of_lt inTofree
  by_cases htofree : how = .tofree
  · subst htofree
    rw [markByte, Prog.get_andThen]
    simp only [loadTofree, loadFound, Prog.pure_andThen, if_true, and_mask_iff found, and_mask_iff tofree]
    rw [Check.mark_tofree]
    by_cases already : Mem s.tofreedata block
    · rw [if_pos already]
      exact ⟨s, rfl, (if_pos (.inl (decide_eq_true already))).symm, sized⟩
    · by_cases used : Mem s.bitmapdata block
      · rw [if_neg already, if_pos used]
        exact ⟨s, rfl, (if_pos (.inr (decide_eq_true used))).symm, sized⟩
      · rw [if_neg already, if_neg used]
        have free : ¬ (s.toCheck.tofreedata block ∨ s.toCheck.bitmapdata block) := by
          rintro (h | h)
          · exact already (of_decide_eq_true h)
          · exact used (of_decide_eq_true h)
        refine ⟨_, rfl, ?_, sized.found, List.length_set.trans sized.tofree⟩
        rw [if_neg free]
        exact congrArg (fun bits => { s.toCheck with tofreedata := bits }) (bitsOf_mark tofree)
  · rw [markByte, Prog.get_andThen]
    simp only [loadTofree, loadFound, Prog.pure_andThen, if_neg htofree]
    obtain ⟨data, first, length, bits⟩ := whenTofree_run s tofree
    have second := whenUsed_run { s with tofreedata := data } found
    rw [Prog.andThen_of_run first, Prog.andThen_of_run second, Check.mark_used _ _ htofree]
    refine ⟨_, rfl, ?_, List.length_set.trans sized.found, length.trans sized.tofree⟩
    simp only [Maps.toCheck, bits, bitsOf_mark found]
    rfl

/-- A sequence of marks on the sets. -/
def Check.marks (c : Check) (marks : List (Nat × Blockusage)) : Check :=
  marks.foldl (fun c mark => c.mark mark.1 mark.2) c

/-- Some of the marks are for the block, and say that it is in use. -/
def Used (marks : List (Nat × Blockusage)) (n : Nat) : Prop := ∃ mark ∈ marks, mark.1 = n ∧ mark.2 ≠ .tofree

/-- The marks on the arrays are the marks on the sets. -/
lemma markBytes_run {s : Maps} (sized : s.Sized) {marks : List (Nat × Blockusage)}
    (lt : ∀ mark ∈ marks, mark.1 < 4096 * s.vars.bitblocks) :
    ∃ s', markBytes marks s = .ok (.ok (), s') ∧ s'.toCheck = s.toCheck.marks marks ∧ s'.Sized := by
  induction marks generalizing s with
  | nil => exact ⟨s, rfl, rfl, sized⟩
  | cons mark marks ih =>
    obtain ⟨block, how⟩ := mark
    obtain ⟨s₁, run, check, sized₁⟩ := markByte_run sized (lt _ List.mem_cons_self) how
    have same : s₁.vars.bitblocks = s.vars.bitblocks :=
      (congrArg Check.bitblocks check).trans (s.toCheck.steps_mark block how).bitblocks
    obtain ⟨s₂, rest, checks, sized₂⟩ := ih sized₁ fun mark mem => same ▸ lt mark (List.mem_cons_of_mem _ mem)
    refine ⟨s₂, ?_, ?_, sized₂⟩
    · rw [markBytes, Prog.andThen_of_run run, rest]
    · rw [checks, check]
      rfl

/-- What a mark does to the set of blocks that were found. -/
lemma Check.mark_bitmapdata (c : Check) (block n : Nat) (how : Blockusage) :
    (c.mark block how).bitmapdata n = true ↔ c.bitmapdata n = true ∨ block = n ∧ how ≠ .tofree := by
  by_cases tofree : how = .tofree
  · subst tofree
    have same : (c.mark block .tofree).bitmapdata = c.bitmapdata := by
      rw [Check.mark_tofree]
      split_ifs <;> rfl
    rw [same]
    exact (or_iff_left fun h => h.2 rfl).symm
  · rw [c.mark_used block tofree]
    by_cases h : n = block
    · subst h
      simp [tofree]
    · simp [h, Ne.symm h]

/-- A mark keeps the two sets disjoint. -/
lemma Check.mark_disjoint {c : Check} (disjoint : ∀ n, ¬ (c.bitmapdata n = true ∧ c.tofreedata n = true))
    (block n : Nat) (how : Blockusage) :
    ¬ ((c.mark block how).bitmapdata n = true ∧ (c.mark block how).tofreedata n = true) := by
  rintro ⟨found, tofree⟩
  by_cases htofree : how = .tofree
  · subst htofree
    rw [Check.mark_tofree] at found tofree
    split_ifs at found tofree with already
    · exact disjoint n ⟨found, tofree⟩
    · by_cases h : n = block
      · exact already (.inr (h ▸ found))
      · dsimp only at tofree
        rw [Function.update_of_ne h] at tofree
        exact disjoint n ⟨found, tofree⟩
  · rw [c.mark_used block htofree] at found tofree
    dsimp only at found tofree
    by_cases h : n = block
    · rw [h, Function.update_self] at tofree
      exact Bool.false_ne_true tofree
    · rw [Function.update_of_ne h] at found tofree
      exact disjoint n ⟨found, tofree⟩

/-- A block is in use if it was, or a mark says so. -/
lemma Check.marks_bitmapdata (c : Check) (marks : List (Nat × Blockusage)) (n : Nat) :
    (c.marks marks).bitmapdata n = true ↔ c.bitmapdata n = true ∨ Used marks n := by
  induction marks generalizing c with
  | nil => simp [Check.marks, Used]
  | cons mark marks ih =>
    show ((c.mark mark.1 mark.2).marks marks).bitmapdata n = true ↔ _
    rw [ih, Check.mark_bitmapdata, or_assoc]
    simp [Used]

/-- No block gets marked both ways. -/
lemma Check.marks_disjoint {c : Check} (disjoint : ∀ n, ¬ (c.bitmapdata n = true ∧ c.tofreedata n = true))
    (marks : List (Nat × Blockusage)) (n : Nat) :
    ¬ ((c.marks marks).bitmapdata n = true ∧ (c.marks marks).tofreedata n = true) := by
  induction marks generalizing c with
  | nil => exact disjoint n
  | cons mark marks ih => exact ih fun n => Check.mark_disjoint disjoint mark.1 n mark.2

/-- The block `i` of an array (C `bitmapdata + i*SFS_BLOCKSIZE`). -/
def blockAt (data : List (BitVec 8)) (i : Nat) : Block := fun j => UInt8.ofBitVec (data[512 * i + j.val]?.getD 0)

/-- No block is in both sets. -/
def Maps.Disjoint (s : Maps) : Prop := ∀ n, ¬ (Mem s.bitmapdata n ∧ Mem s.tofreedata n)

/-- No byte has a bit of both arrays. -/
lemma Maps.Disjoint.and_eq_zero {s : Maps} (h : s.Disjoint) (i : Nat) (j : Fin 512) :
    blockAt s.bitmapdata i j &&& blockAt s.tofreedata i j = 0 := by
  have zero : (s.bitmapdata[512 * i + j.val]?.getD 0) &&& (s.tofreedata[512 * i + j.val]?.getD 0) = 0 := by
    apply BitVec.eq_of_getLsbD_eq
    intro k lt
    have no := h ((512 * i + j.val) * 8 + k)
    rw [Mem, Mem, div_of_lt lt, mod_of_lt lt] at no
    rw [BitVec.getLsbD_and]
    have clear : ¬ ((s.bitmapdata[512 * i + j.val]?.getD 0).getLsbD k &&
        (s.tofreedata[512 * i + j.val]?.getD 0).getLsbD k) = true := by
      rw [Bool.and_eq_true]
      exact no
    rw [Bool.not_eq_true] at clear
    rw [clear]
    exact BitVec.getLsbD_zero.symm
  exact congrArg UInt8.ofBitVec zero

/-- What is done to a byte, with the bytes that were found in use and to be freed. -/
def MapCheck.byte (v : MapCheck) (found tofree : Block) (j : Fin 512) : MapCheck :=
  if v.bits j = found j then v
  else if v.bits j = found j ||| tofree j then
    { v with bits := Function.update v.bits j (found j), bchanged := true }
  else
    let freed := v.bits j &&& ~~~ tofree j
    let alloccount :=
      if freed &&& found j ≠ found j then v.alloccount + countbits (found j &&& ~~~ freed) else v.alloccount
    let freecount :=
      if freed &&& found j ≠ freed then v.freecount + countbits (freed &&& ~~~ found j) else v.freecount
    ⟨Function.update v.bits j (found j), true, alloccount, freecount⟩

/-- The byte becomes the one that was found in each of the three cases. -/
lemma MapCheck.byte_bits (v : MapCheck) (found tofree : Block) (j : Fin 512) :
    (v.byte found tofree j).bits = Function.update v.bits j (found j) := by
  rw [MapCheck.byte]
  split_ifs with same
  · rw [← same, Function.update_eq_self]
  · rfl
  · rfl

/-- The block has changed if it had or if this byte differs. -/
lemma MapCheck.byte_bchanged (v : MapCheck) (found tofree : Block) (j : Fin 512) :
    (v.byte found tofree j).bchanged = true ↔ v.bchanged = true ∨ v.bits j ≠ found j := by
  rw [MapCheck.byte]
  split_ifs with same
  · exact (or_iff_left (not_not_intro same)).symm
  · exact iff_of_true rfl (.inr same)
  · exact iff_of_true rfl (.inr same)

/-- The body of the loop sets the byte, and its assertion holds. -/
lemma checkMapByte_run {s : Maps} (sized : s.Sized) (disjoint : s.Disjoint) {i : Nat} (lt : i < s.vars.bitblocks)
    (v : MapCheck) (j : Fin 512) :
    checkMapByte i v j s = .ok (.ok (v.byte (blockAt s.bitmapdata i) (blockAt s.tofreedata i) j), s) := by
  have hj := j.isLt
  have inFound : 512 * i + j.val < s.bitmapdata.length := by
    rw [sized.found]
    omega
  have inTofree : 512 * i + j.val < s.tofreedata.length := by
    rw [sized.tofree]
    omega
  obtain ⟨x, found, loadFound⟩ := load_of_lt inFound
  obtain ⟨y, tofree, loadTofree⟩ := load_of_lt inTofree
  have foundAt : blockAt s.bitmapdata i j = UInt8.ofBitVec x := by
    rw [blockAt, found]
    rfl
  have tofreeAt : blockAt s.tofreedata i j = UInt8.ofBitVec y := by
    rw [blockAt, tofree]
    rfl
  have both := disjoint.and_eq_zero i j
  rw [foundAt, tofreeAt] at both
  rw [checkMapByte, Prog.get_andThen, MapCheck.byte, foundAt, tofreeAt, loadFound, Prog.pure_andThen, loadTofree,
    Prog.pure_andThen]
  dsimp only
  rw [Prog.require, if_pos both, Prog.pure_andThen]
  split_ifs <;> rfl

/-- The bytes of a block are gone through. -/
def MapCheck.bytes (v : MapCheck) (found tofree : Block) (js : List (Fin 512)) : MapCheck :=
  js.foldl (fun v j => v.byte found tofree j) v

/-- So does the loop. -/
lemma checkMapBytes_run {s : Maps} (sized : s.Sized) (disjoint : s.Disjoint) {i : Nat} (lt : i < s.vars.bitblocks)
    (js : List (Fin 512)) (v : MapCheck) :
    checkMapBytes i js v s = .ok (.ok (v.bytes (blockAt s.bitmapdata i) (blockAt s.tofreedata i) js), s) := by
  induction js generalizing v with
  | nil => rfl
  | cons j js ih =>
    rw [checkMapBytes, Prog.andThen_of_run (checkMapByte_run sized disjoint lt v j)]
    exact ih _

/-- The bytes that have been gone through are those that were found. -/
lemma MapCheck.bytes_bits (v : MapCheck) (found tofree : Block) (js : List (Fin 512)) (k : Fin 512) :
    (v.bytes found tofree js).bits k = if k ∈ js then found k else v.bits k := by
  induction js generalizing v with
  | nil => rfl
  | cons j js ih =>
    refine (ih (v.byte found tofree j)).trans ?_
    rw [MapCheck.byte_bits]
    by_cases h : k = j
    · subst h
      rw [Function.update_self, if_pos List.mem_cons_self, ite_self]
    · rw [Function.update_of_ne h]
      simp [h]

/-- The block has changed if one of them differs. -/
lemma MapCheck.bytes_bchanged (v : MapCheck) (found tofree : Block) (js : List (Fin 512)) :
    (v.bytes found tofree js).bchanged = true ↔ v.bchanged = true ∨ ∃ j ∈ js, v.bits j ≠ found j := by
  induction js generalizing v with
  | nil => simp [MapCheck.bytes]
  | cons j js ih =>
    refine (ih (v.byte found tofree j)).trans ?_
    rw [MapCheck.byte_bchanged, MapCheck.byte_bits, or_assoc]
    refine or_congr_right ?_
    by_cases h : v.bits j = found j
    · rw [← h, Function.update_eq_self]
      simp [h]
    · simp [h]

/-- The block of the bitmap becomes the one that was found; it has changed if it was another one. -/
lemma MapCheck.bytes_all (v : MapCheck) (found tofree : Block) (h : v.bchanged = false) :
    (v.bytes found tofree (List.finRange 512)).bits = found ∧
      ((v.bytes found tofree (List.finRange 512)).bchanged = true ↔ v.bits ≠ found) := by
  constructor
  · funext k
    rw [MapCheck.bytes_bits, if_pos (List.mem_finRange k)]
  · rw [MapCheck.bytes_bchanged, h, Ne, funext_iff, not_forall]
    simp

/-- A block of the bitmap on the disk is another one than the one that was found. -/
def Check.Stale (c : Check) (found : Nat → Block) (k : Nat) : Prop := c.disk.sect (2 + k) ≠ found k

open Classical in
/-- A block of the bitmap on the disk is replaced if it is another one. -/
noncomputable def Check.fixBlock (c : Check) (found : Nat → Block) (k : Nat) : Check :=
  if c.Stale found k then c.write (2 + k) (found k) else c

/-- Some blocks of the bitmap on the disk become those that were found. -/
noncomputable def Check.fixBlocks (c : Check) (found : Nat → Block) : List Nat → Check
  | [] => c
  | k :: ks => (c.fixBlock found k).fixBlocks found ks

variable {c : Check} {found : Nat → Block} {k : Nat}

/-- One sector is written. -/
lemma Check.fixBlock_sect (m : Nat) :
    (c.fixBlock found k).disk.sect m = if m = 2 + k then found k else c.disk.sect m := by
  rw [Check.fixBlock]
  split_ifs with stale here here
  · rw [here]
    exact Function.update_self ..
  · exact Function.update_of_ne here ..
  · rw [here]
    exact not_not.1 stale
  · rfl

/-- The size of the disk stays. -/
lemma Check.fixBlock_blocks : (c.fixBlock found k).disk.blocks = c.disk.blocks := by
  rw [Check.fixBlock]
  split_ifs <;> rfl

/-- The size of the bitmap stays. -/
lemma Check.fixBlock_bitblocks : (c.fixBlock found k).bitblocks = c.bitblocks := by
  rw [Check.fixBlock]
  split_ifs <;> rfl

/-- The sectors of the bitmap are written, and no others. -/
lemma Check.fixBlocks_sect (ks : List Nat) (m : Nat) :
    (c.fixBlocks found ks).disk.sect m = if 2 ≤ m ∧ m - 2 ∈ ks then found (m - 2) else c.disk.sect m := by
  induction ks generalizing c with
  | nil => simp [Check.fixBlocks]
  | cons k ks ih =>
    rw [Check.fixBlocks, ih, Check.fixBlock_sect]
    by_cases rest : 2 ≤ m ∧ m - 2 ∈ ks
    · rw [if_pos rest, if_pos ⟨rest.1, List.mem_cons_of_mem _ rest.2⟩]
    · rw [if_neg rest]
      by_cases here : m = 2 + k
      · have eq : m - 2 = k := by omega
        rw [if_pos here, if_pos (And.intro (by omega) (eq ▸ List.mem_cons_self)), eq]
      · rw [if_neg here, if_neg]
        rintro ⟨le, mem⟩
        cases List.mem_cons.1 mem with
        | inl h => exact here (by omega)
        | inr h => exact rest ⟨le, h⟩

/-- The sectors that are written are those that had another block. -/
lemma Check.fixBlocks_writes {ks : List Nat} (nodup : ks.Nodup) :
    ∃ ws, (c.fixBlocks found ks).writes = ws ++ c.writes ∧ ws.Nodup ∧
      ∀ n, n ∈ ws ↔ ∃ k ∈ ks, n = 2 + k ∧ c.Stale found k := by
  induction ks generalizing c with
  | nil => exact ⟨[], rfl, List.nodup_nil, fun n => by simp⟩
  | cons k ks ih =>
    obtain ⟨fresh, nodup⟩ := List.nodup_cons.1 nodup
    obtain ⟨ws, writes, once, mem⟩ := ih nodup (c := c.fixBlock found k)
    have other {j : Nat} (h : j ∈ ks) : (c.fixBlock found k).disk.sect (2 + j) = c.disk.sect (2 + j) := by
      have ne : ¬ 2 + j = 2 + k := fun eq => fresh ((Nat.add_left_cancel eq) ▸ h)
      rw [Check.fixBlock_sect, if_neg ne]
    have mem (n : Nat) : n ∈ ws ↔ ∃ j ∈ ks, n = 2 + j ∧ c.Stale found j := by
      rw [mem n]
      exact exists_congr fun j => and_congr_right fun h => by rw [Check.Stale, other h, Check.Stale]
    rw [Check.fixBlocks, writes]
    by_cases h : c.Stale found k
    · refine ⟨ws ++ [2 + k], ?_, ?_, fun n => ?_⟩
      · rw [Check.fixBlock, if_pos h, List.append_assoc]
        rfl
      · refine List.nodup_append.2 ⟨once, List.nodup_singleton _, fun n hn m hm => ?_⟩
        obtain ⟨j, hj, rfl, -⟩ := (mem n).1 hn
        rw [List.mem_singleton.1 hm]
        exact fun eq => fresh ((Nat.add_left_cancel eq) ▸ hj)
      · rw [List.mem_append, mem n, List.mem_singleton]
        simp [h, or_comm]
    · refine ⟨ws, ?_, once, fun n => ?_⟩
      · rw [Check.fixBlock, if_neg h]
      · rw [mem n]
        simp [h]

/-- The blocks of the bitmap are sectors of the disk. -/
structure Check.MapOnDisk (c : Check) : Prop where
  small : c.bitblocks < 2 ^ 20
  onDisk : 2 + c.bitblocks ≤ c.disk.blocks

/-- A function that does not use the arrays leaves them alone. -/
lemma onVars_of_run {α : Type} {m : CheckM α} {s : Maps} {r : Except Nat α} {c : Check} (run : m s.vars = .ok (r, c)) :
    onVars m s = .ok (r, { s with vars := c }) := by
  rw [onVars, run]

/-- A sector of the disk is written. -/
lemma diskwrite_of_lt {c : Check} {b : Block} {block : Nat} (h : sector block < c.disk.blocks) :
    diskwrite b block c = .ok (.ok (), c.write (sector block) b) := by
  rw [diskwrite, Prog.get_andThen, if_pos h]
  rfl

/-- A byte of zeros has no bits. -/
lemma countbits_zero : countbits 0 = 0 := by decide

/-- No bits are left of those that are all in the other byte. -/
lemma countbits_diff {x y : UInt8} (h : x &&& y = y) : countbits (y &&& ~~~ x) = 0 := by
  rw [← h, UInt8.and_comm x y, UInt8.and_assoc, UInt8.and_not_self, UInt8.and_zero, countbits_zero]

/-- The counts of a byte. -/
lemma MapCheck.byte_counts (v : MapCheck) (found tofree : Block) (j : Fin 512) :
    ((v.byte found tofree j).alloccount, (v.byte found tofree j).freecount) =
      if v.bits j = found j ∨ v.bits j = found j ||| tofree j then (v.alloccount, v.freecount)
      else (v.alloccount + countbits (found j &&& ~~~ (v.bits j &&& ~~~ tofree j)),
        v.freecount + countbits (v.bits j &&& ~~~ tofree j &&& ~~~ found j)) := by
  rw [MapCheck.byte]
  by_cases same : v.bits j = found j
  · rw [if_pos same, if_pos (.inl same)]
  · by_cases union : v.bits j = found j ||| tofree j
    · rw [if_neg same, if_pos union, if_pos (.inr union)]
    · rw [if_neg same, if_neg union, if_neg (not_or.2 ⟨same, union⟩)]
      dsimp only
      generalize v.bits j &&& ~~~ tofree j = freed
      refine Prod.ext ?_ ?_
      · dsimp only
        split_ifs with short
        · rfl
        · rw [countbits_diff (not_not.1 short), Nat.add_zero]
      · dsimp only
        split_ifs with extra
        · rfl
        · have eq : found j &&& freed = freed := (UInt8.and_comm _ _).trans (not_not.1 extra)
          rw [countbits_diff eq, Nat.add_zero]

/-- The loop of `check_bitmap` over the bytes counts and notes what the one on the sets does. -/
lemma checkBytes_run (c : Check) {bits found tofree : Block} (disjoint : ∀ j, found j &&& tofree j = 0)
    {js : List (Fin 512)} (nodup : js.Nodup) (v : MapCheck) (same : ∀ j ∈ js, v.bits j = bits j) :
    ∃ r : Bool × Nat × Nat, checkBytes bits found tofree js c = .ok (.ok r, c) ∧
      (v.bytes found tofree js).bchanged = (v.bchanged || r.1) ∧
      (v.bytes found tofree js).alloccount = v.alloccount + r.2.1 ∧
      (v.bytes found tofree js).freecount = v.freecount + r.2.2 := by
  induction js generalizing v with
  | nil => exact ⟨(false, 0, 0), rfl, (Bool.or_false _).symm, rfl, rfl⟩
  | cons j js ih =>
    obtain ⟨fresh, nodup⟩ := List.nodup_cons.1 nodup
    have here := same j List.mem_cons_self
    have rest : ∀ k ∈ js, (v.byte found tofree j).bits k = bits k := by
      intro k mem
      have ne : k ≠ j := fun eq => fresh (eq ▸ mem)
      rw [MapCheck.byte_bits, Function.update_of_ne ne]
      exact same k (List.mem_cons_of_mem _ mem)
    obtain ⟨⟨ch, a, f⟩, run, changed, alloc, free⟩ := ih nodup (v.byte found tofree j) rest
    have bytes : v.bytes found tofree (j :: js) = (v.byte found tofree j).bytes found tofree js := rfl
    have counts := v.byte_counts found tofree j
    have note := v.byte_bchanged found tofree j
    rw [here] at counts note
    rw [checkBytes, Prog.require, if_pos (disjoint j), Prog.pure_andThen, bytes, changed, alloc, free]
    by_cases clean : bits j = found j
    · rw [if_pos clean]
      rw [if_pos (.inl clean), Prod.mk.injEq] at counts
      rw [or_iff_left (not_not_intro clean), ← Bool.eq_iff_iff] at note
      exact ⟨(ch, a, f), run, by rw [note], by rw [counts.1], by rw [counts.2]⟩
    · rw [if_neg clean]
      have note := note.2 (.inr clean)
      rw [note]
      by_cases union : bits j = found j ||| tofree j
      · rw [if_pos union, Prog.andThen_of_run run]
        rw [if_pos (.inr union), Prod.mk.injEq] at counts
        exact ⟨(true, a, f), rfl, by simp, by rw [counts.1], by rw [counts.2]⟩
      · rw [if_neg union, Prog.andThen_of_run run]
        rw [if_neg (not_or.2 ⟨clean, union⟩), Prod.mk.injEq] at counts
        exact ⟨_, rfl, by simp, by rw [counts.1, Nat.add_assoc], by rw [counts.2, Nat.add_assoc]⟩

/-- The blocks of an array are those of its set. -/
lemma mapBlock_bitsOf (data : List (BitVec 8)) (i : Nat) : mapBlock (bitsOf data) i = blockAt data i := by
  funext j
  have bits : (Nat.ofBits fun b : Fin 8 => bitsOf data (8 * (512 * i + j.val) + b.val)) =
      (data[512 * i + j.val]?.getD 0).toNat := by
    apply Nat.eq_of_testBit_eq
    intro b
    by_cases lt : b < 8
    · rw [Nat.testBit_ofBits_lt _ _ lt, BitVec.testBit_toNat]
      have bit : Mem data (8 * (512 * i + j.val) + b) ↔ (data[512 * i + j.val]?.getD 0).getLsbD b = true := by
        rw [Nat.mul_comm, Mem, div_of_lt lt, mod_of_lt lt]
      exact Bool.eq_iff_iff.2 (decide_eq_true_iff.trans bit)
    · rw [Nat.testBit_ofBits_ge _ _ (not_lt.1 lt), BitVec.testBit_toNat, BitVec.getLsbD_of_ge _ _ (not_lt.1 lt)]
  rw [mapBlock, bits, blockAt]
  exact UInt8.toNat_inj.1 (by simp)

/-- The loop over the blocks of the bitmap replaces those that are others than were found, and does what the one on the
sets does. -/
lemma checkMapFrom_run {s : Maps} (sized : s.Sized) (disjoint : s.Disjoint) (onDisk : s.vars.MapOnDisk) {n i : Nat}
    (le : i + n ≤ s.vars.bitblocks) (counts : Nat × Nat) :
    ∃ s' r, s' = { s with vars := s.vars.fixBlocks (blockAt s.bitmapdata) (List.range' i n) } ∧
      checkMapFrom n i counts s = .ok (.ok (counts.1 + r.1, counts.2 + r.2), s') ∧
      checkMapblocks n i s.toCheck = .ok (.ok r, s'.toCheck) := by
  induction n generalizing i s counts with
  | zero => exact ⟨s, (0, 0), rfl, rfl, rfl⟩
  | succ n ih =>
    have here : sector (2 + i) = 2 + i := by
      have := onDisk.small
      exact sector_of_lt (by omega)
    have lt : sector (2 + i) < s.vars.disk.blocks := by
      have := onDisk.onDisk
      omega
    have read := onVars_of_run (s := s) (diskread_of_lt lt)
    have readSet : diskread (2 + i) s.toCheck = _ := diskread_of_lt lt
    -- the bytes of the block
    generalize start : MapCheck.mk (s.vars.disk.sect (sector (2 + i))) false counts.1 counts.2 = v₀
    have bits₀ : v₀.bits = s.vars.disk.sect (sector (2 + i)) := by rw [← start]
    have bytes := checkMapBytes_run sized disjoint (i := i) (by omega) (List.finRange 512) v₀
    obtain ⟨bits, changed⟩ := v₀.bytes_all (blockAt s.bitmapdata i) (blockAt s.tofreedata i) (by rw [← start])
    obtain ⟨r, bytesSet, changedSet, alloc, free⟩ := checkBytes_run s.toCheck (disjoint.and_eq_zero i)
      (List.nodup_finRange 512) v₀ fun j _ => congrFun bits₀ j
    generalize MapCheck.bytes _ _ _ _ = v at bytes bits changed changedSet alloc free
    have note : v.bchanged = r.1 := changedSet.trans (by rw [← start, Bool.false_or])
    rw [bits₀, here] at changed
    -- the block is written
    generalize fixed : s.vars.fixBlock (blockAt s.bitmapdata) i = vars
    have write : Prog.when v.bchanged (onVars (diskwrite v.bits (2 + i))) s =
          .ok (.ok (), { s with vars := vars }) ∧
        Prog.when r.1 (diskwrite (blockAt s.bitmapdata i) (2 + i)) s.toCheck =
          .ok (.ok (), { s with vars := vars }.toCheck) := by
      have onDisk : sector (2 + i) < s.toCheck.disk.blocks := lt
      rw [Prog.when, Prog.when, ← note, ← fixed, Check.fixBlock]
      by_cases stale : s.vars.Stale (blockAt s.bitmapdata) i
      · rw [if_pos (changed.2 stale), if_pos (changed.2 stale), if_pos stale, onVars_of_run (diskwrite_of_lt lt),
          diskwrite_of_lt onDisk, here, bits]
        exact ⟨rfl, rfl⟩
      · rw [if_neg fun h => stale (changed.1 h), if_neg fun h => stale (changed.1 h), if_neg stale]
        exact ⟨rfl, rfl⟩
    have bitblocks : vars.bitblocks = s.vars.bitblocks := by rw [← fixed, Check.fixBlock_bitblocks]
    have blocks : vars.disk.blocks = s.vars.disk.blocks := by rw [← fixed, Check.fixBlock_blocks]
    obtain ⟨s', r', rfl, rest, restSet⟩ := ih (s := { s with vars := vars })
      ⟨sized.found.trans (congrArg (512 * ·) bitblocks.symm), sized.tofree.trans (congrArg (512 * ·) bitblocks.symm)⟩
      (fun n => disjoint n) ⟨bitblocks ▸ onDisk.small, bitblocks ▸ blocks ▸ onDisk.onDisk⟩ (i := i + 1)
      (by dsimp only; omega) (v.alloccount, v.freecount)
    refine ⟨_, (r.2.1 + r'.1, r.2.2 + r'.2), rfl, ?_, ?_⟩
    · rw [checkMapFrom, Prog.andThen_of_run read, start, Prog.andThen_of_run bytes, Prog.andThen_of_run write.1, rest,
        List.range'_succ, Check.fixBlocks, fixed, alloc, free, ← start, Nat.add_assoc, Nat.add_assoc]
    · have foundSet : mapBlock s.toCheck.bitmapdata i = blockAt s.bitmapdata i := mapBlock_bitsOf s.bitmapdata i
      have tofreeSet : mapBlock s.toCheck.tofreedata i = blockAt s.tofreedata i := mapBlock_bitsOf s.tofreedata i
      have disk : s.toCheck.disk.sect (sector (2 + i)) = s.vars.disk.sect (sector (2 + i)) := rfl
      rw [checkMapblocks, Prog.andThen_of_run readSet, Prog.get_andThen]
      dsimp only
      rw [foundSet, tofreeSet, disk, Prog.andThen_of_run bytesSet, Prog.andThen_of_run write.2,
        Prog.andThen_of_run restSet, List.range'_succ, Check.fixBlocks, fixed]
      rfl

/-- `check_bitmap` on the arrays does what it does on the sets. -/
lemma checkMap_run {s : Maps} (sized : s.Sized) (disjoint : s.Disjoint) (onDisk : s.vars.MapOnDisk) :
    ∃ s' badness, s' = { s with vars :=
        { s.vars.fixBlocks (blockAt s.bitmapdata) (List.range' 0 s.vars.bitblocks) with badness := badness } } ∧
      checkMap s = .ok (.ok (), s') ∧ checkBitmap s.toCheck = .ok (.ok (), s'.toCheck) := by
  obtain ⟨s₁, ⟨alloc, free⟩, eq, run, runSet⟩ := checkMapFrom_run sized disjoint onDisk (Nat.zero_add _).le (0, 0)
  rw [Nat.zero_add, Nat.zero_add] at run
  have set (c : Prop) [Decidable c] (s : Maps) : ∃ badness,
      Prog.when c (onVars (setbadness exitRecov)) s =
        .ok (.ok (), { s with vars := { s.vars with badness := badness } }) ∧
      Prog.when c (setbadness exitRecov) s.toCheck =
        .ok (.ok (), { s with vars := { s.vars with badness := badness } }.toCheck) := by
    rw [Prog.when, Prog.when]
    by_cases h : c
    · rw [if_pos h, if_pos h]
      by_cases less : s.vars.badness < exitRecov
      · refine ⟨exitRecov, onVars_of_run ?_, ?_⟩
        · exact congrArg (fun c => Except.ok (Except.ok (), c)) (if_pos less)
        · exact congrArg (fun c => Except.ok (Except.ok (), c)) (if_pos less)
      · refine ⟨s.vars.badness, onVars_of_run ?_, ?_⟩
        · exact congrArg (fun c => Except.ok (Except.ok (), c)) (if_neg less)
        · exact congrArg (fun c => Except.ok (Except.ok (), c)) (if_neg less)
    · rw [if_neg h, if_neg h]
      exact ⟨s.vars.badness, rfl, rfl⟩
  obtain ⟨b₁, short, shortSet⟩ := set (alloc > 0) s₁
  obtain ⟨b₂, extra, extraSet⟩ := set (free > 0) { s₁ with vars := { s₁.vars with badness := b₁ } }
  refine ⟨_, b₂, rfl, ?_, ?_⟩
  · rw [checkMap, Prog.get_andThen, Prog.andThen_of_run run, Prog.andThen_of_run short, extra, eq]
  · rw [checkBitmap, Prog.get_andThen]
    have bitblocks : s.toCheck.bitblocks = s.vars.bitblocks := rfl
    rw [bitblocks, Prog.andThen_of_run runSet]
    refine (Prog.andThen_of_run shortSet).trans ?_
    rw [extraSet, eq]

/-! ## The bitmap is reconciled -/

/-- The number of blocks of a bitmap is small. -/
lemma mapblocks_lt (nblocks : Nat) : mapblocks nblocks < 2 ^ 20 := by
  have lt := wadd_lt 32 nblocks (4096 - 1)
  rw [mapblocks, roundup]
  omega

/-- What `bitmap_init` leaves behind. -/
def initial (vars : Check) : Maps :=
  ⟨vars, List.replicate (512 * vars.bitblocks) 0, List.replicate (512 * vars.bitblocks) 0⟩

/-- `bitmap_init` allocates a bit for every block. -/
lemma sized_initial (vars : Check) : (initial vars).Sized := ⟨List.length_replicate, List.length_replicate⟩

/-- No block is in an array of zeros. -/
lemma not_mem_zeros (m n : Nat) : ¬ Mem (List.replicate m (0 : BitVec 8)) n := by
  have zero : ((List.replicate m (0 : BitVec 8))[n / 8]?).getD 0 = 0 := by
    rw [List.getElem?_replicate]
    split_ifs <;> rfl
  rw [Mem, zero]
  simp

/-- Marks do not touch the disk. -/
lemma Check.marks_same (c : Check) (marks : List (Nat × Blockusage)) :
    (c.marks marks).disk = c.disk ∧ (c.marks marks).writes = c.writes ∧ (c.marks marks).bitblocks = c.bitblocks := by
  induction marks generalizing c with
  | nil => exact ⟨rfl, rfl, rfl⟩
  | cons mark marks ih =>
    have same : (c.mark mark.1 mark.2).disk = c.disk ∧ (c.mark mark.1 mark.2).writes = c.writes ∧
        (c.mark mark.1 mark.2).bitblocks = c.bitblocks := by
      by_cases tofree : mark.2 = .tofree
      · rw [tofree, Check.mark_tofree]
        split_ifs <;> exact ⟨rfl, rfl, rfl⟩
      · rw [c.mark_used _ tofree]
        exact ⟨rfl, rfl, rfl⟩
    obtain ⟨disk, writes, bitblocks⟩ := ih (c.mark mark.1 mark.2)
    exact ⟨disk.trans same.1, writes.trans same.2.1, bitblocks.trans same.2.2⟩

/-- After any sequence of marks of blocks that have a bit, a block is in the array of those that were found if a mark
says that it is in use, no block is in both arrays, and the check of the bitmap, whatever is on the disk, leaves the
array of those that were found in the place of the bitmap; of the sectors it writes those that had something else. -/
theorem bitmap_reconciles (vars : Check) (size : vars.bitblocks = mapblocks vars.nblocks)
    (onDisk : 2 + vars.bitblocks ≤ vars.disk.blocks) (marks : List (Nat × Blockusage))
    (inRange : ∀ mark ∈ marks, mark.1 < 4096 * vars.bitblocks) (bitmapdata tofreedata : List (BitVec 8)) :
    ∃ s s', (do bitmapInit; markBytes marks) ⟨vars, bitmapdata, tofreedata⟩ = .ok (.ok (), s) ∧
      (∀ n, ¬ (Mem s.bitmapdata n ∧ Mem s.tofreedata n)) ∧
      (∀ n, Mem s.bitmapdata n ↔ ∃ mark ∈ marks, mark.1 = n ∧ mark.2 ≠ .tofree) ∧
      checkMap s = .ok (.ok (), s') ∧
      s'.bitmapdata = s.bitmapdata ∧
      (∀ i < vars.bitblocks, s'.vars.disk.sect (2 + i) = blockAt s.bitmapdata i) ∧
      (∀ n, n < 2 ∨ 2 + vars.bitblocks ≤ n → s'.vars.disk.sect n = vars.disk.sect n) ∧
      ∃ ws, s'.vars.writes = ws ++ vars.writes ∧ ws.Nodup ∧
        ∀ n, n ∈ ws ↔ ∃ i < vars.bitblocks, n = 2 + i ∧ vars.disk.sect (2 + i) ≠ blockAt s.bitmapdata i := by
  obtain ⟨s, run, eq, sized⟩ := markBytes_run (sized_initial vars) inRange
  obtain ⟨disk, writes, bitblocks⟩ := (initial vars).toCheck.marks_same marks
  rw [← eq] at disk writes bitblocks
  have none (n : Nat) : ¬ bitsOf (List.replicate (512 * vars.bitblocks) 0) n = true :=
    fun h => not_mem_zeros _ n (of_decide_eq_true h)
  have found (n : Nat) : Mem s.bitmapdata n ↔ ∃ mark ∈ marks, mark.1 = n ∧ mark.2 ≠ .tofree := by
    have bit := (initial vars).toCheck.marks_bitmapdata marks n
    rw [← eq] at bit
    exact decide_eq_true_iff.symm.trans (bit.trans (or_iff_right (none n)))
  have disjoint : s.Disjoint := by
    have both := (initial vars).toCheck.marks_disjoint (fun n h => none n h.1) marks
    rw [← eq] at both
    exact fun n h => both n ⟨decide_eq_true h.1, decide_eq_true h.2⟩
  have map : s.vars.MapOnDisk := by
    refine ⟨?_, ?_⟩
    · exact (bitblocks.trans size).trans_lt (mapblocks_lt _)
    · exact (congrArg (2 + ·) bitblocks).le.trans (onDisk.trans (congrArg Lhd.blocks disk).ge)
  obtain ⟨s', badness, eq', check, -⟩ := checkMap_run sized disjoint map
  have disk : s.vars.disk = vars.disk := disk
  have writes : s.vars.writes = vars.writes := writes
  have bitblocks : s.vars.bitblocks = vars.bitblocks := bitblocks
  have mem (i : Nat) : i ∈ List.range' 0 s.vars.bitblocks ↔ i < vars.bitblocks := by
    rw [List.mem_range'_1, bitblocks]
    omega
  have sect (n : Nat) : s'.vars.disk.sect n =
      if 2 ≤ n ∧ n - 2 ∈ List.range' 0 s.vars.bitblocks then blockAt s.bitmapdata (n - 2) else vars.disk.sect n := by
    rw [eq', ← disk]
    exact Check.fixBlocks_sect _ n
  obtain ⟨ws, wrote, once, stale⟩ := @Check.fixBlocks_writes s.vars (blockAt s.bitmapdata) _
    (List.nodup_range' (s := 0) (n := s.vars.bitblocks))
  refine ⟨s, s', ?_, disjoint, found, check, by rw [eq'], fun i lt => ?_, fun n out => ?_, ws, ?_, once, fun n => ?_⟩
  · exact run
  · have inside : 2 ≤ 2 + i ∧ 2 + i - 2 ∈ List.range' 0 s.vars.bitblocks :=
      ⟨Nat.le_add_right 2 i, (mem _).2 (by omega)⟩
    rw [sect, if_pos inside, Nat.add_sub_cancel_left]
  · rw [sect, if_neg]
    rintro ⟨le, inside⟩
    have := (mem _).1 inside
    omega
  · rw [eq', ← writes]
    exact wrote
  · rw [stale]
    simp only [mem, Check.Stale, disk]

/-- A file system with eight blocks and zeros for its bitmap. -/
def eightBlocks : Check := { Check.start ⟨8, fun _ => Block.zeros⟩ with nblocks := 8, bitblocks := 1 }

/-- A block is scheduled for freeing before it is found in use, another one is to be freed. -/
theorem bitmap_reconciles_eight :
    ∃ s s', (do bitmapInit; markBytes [(5, .tofree), (5, .data), (6, .tofree)]) ⟨eightBlocks, [], []⟩ =
        .ok (.ok (), s) ∧
      Mem s.bitmapdata 5 ∧ ¬ Mem s.tofreedata 5 ∧ ¬ Mem s.bitmapdata 6 ∧ checkMap s = .ok (.ok (), s') ∧
      s'.vars.disk.sect 2 = blockAt s.bitmapdata 0 := by
  have inRange : ∀ mark ∈ [(5, Blockusage.tofree), (5, .data), (6, .tofree)],
      mark.1 < 4096 * eightBlocks.bitblocks := by
    decide
  obtain ⟨s, s', run, disjoint, found, check, -, sect, -⟩ :=
    bitmap_reconciles eightBlocks rfl (by decide) _ inRange [] []
  have five : Mem s.bitmapdata 5 := (found 5).2 ⟨(5, .data), by decide, rfl, by decide⟩
  refine ⟨s, s', run, five, fun h => disjoint 5 ⟨five, h⟩, fun six => ?_, check, sect 0 (by decide)⟩
  obtain ⟨mark, mem, at6, used⟩ := (found 6).1 six
  simp only [List.mem_cons, List.not_mem_nil, or_false] at mem
  rcases mem with rfl | rfl | rfl
  · cases at6
  · cases at6
  · exact used rfl

end PDS.Sfsck
