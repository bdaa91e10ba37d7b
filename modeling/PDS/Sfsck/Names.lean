import PDS.Sfsck.Frame
import Mathlib.Order.Lex
import Mathlib.Data.List.Lex

/-!
# The names in a directory

What `check_dir` does with the entries of a directory before it follows them. `check_dir_entry` gives every entry that
is in use a terminated name without the two characters that a name must not have. The entries are then sorted by
name, so that entries of the same name are neighbours, and all of them but the last are removed or renamed. The names
that are made up for that are not compared with the others: the entries have different names in the end if no name that
is made up is in use already (`FreshNames`).
-/

namespace PDS.Sfsck
open Sfs Word

variable {s s' : Check} {sfd : SfsDir} {d : List SfsDir}

/-- The string in a buffer, from its first byte. -/
lemma cstring_cons (c : UInt8) (buf : List UInt8) : cstring (c :: buf) = if c = 0 then [] else c :: cstring buf := by
  rw [cstring, cstring]
  split_ifs with zero
  · exact List.takeWhile_cons_of_neg (by simp [zero])
  · exact List.takeWhile_cons_of_pos (by simp [zero])

/-- The string in a buffer, in the order of `strcmp`. -/
def key (buf : List UInt8) : List Nat := (cstring buf).map UInt8.toNat

/-- Two buffers with one key have one string in them. -/
lemma key_inj {a b : List UInt8} : key a = key b ↔ cstring a = cstring b :=
  (List.map_injective_iff.2 fun _ _ eq => UInt8.toNat_inj.1 eq).eq_iff

/-- A buffer that begins with a zero has the least key. -/
lemma key_zero (buf : List UInt8) : key (0 :: buf) = [] := rfl

/-- The key of a buffer, from its first character. -/
lemma key_cons {c : UInt8} (ne : c ≠ 0) (buf : List UInt8) : key (c :: buf) = c.toNat :: key buf := by
  rw [key, cstring_cons, if_neg ne]
  rfl

/-- A string that is not empty comes after the empty one. -/
lemma nil_lt_key {c : UInt8} (ne : c ≠ 0) (buf : List UInt8) : [] < key (c :: buf) := by
  rw [key_cons ne]
  exact List.nil_lt_cons _ _

/-- The first characters decide where they differ. -/
lemma key_lt {c d : UInt8} (lt : c < d) (a b : List UInt8) : key (c :: a) < key (d :: b) := by
  have lt := UInt8.lt_iff_toNat_lt.1 lt
  have ne : d ≠ 0 := by
    rintro rfl
    exact absurd lt (Nat.not_lt_zero _)
  by_cases zero : c = 0
  · rw [zero, key_zero]
    exact nil_lt_key ne b
  · rw [key_cons ne, key_cons zero, List.cons_lt_cons_iff]
    exact .inl lt

/-- `strcmp` compares the strings in the buffers. -/
lemma strcmp_spec (a b : List UInt8) : (strcmp a b < 0 ↔ key a < key b) ∧ (strcmp a b = 0 ↔ key a = key b) := by
  induction a generalizing b with
  | nil =>
    cases b with
    | nil => decide
    | cons d bs =>
      have nil : key [] = [] := rfl
      rw [strcmp, nil]
      split_ifs with zero
      · rw [← zero, key_zero]
        decide
      · have lt := nil_lt_key (Ne.symm zero) bs
        exact ⟨iff_of_true (by decide) lt, iff_of_false (by decide) lt.ne⟩
  | cons c as ih =>
    cases b with
    | nil =>
      have nil : key [] = [] := rfl
      rw [strcmp, nil]
      split_ifs with pos
      · have lt := nil_lt_key (UInt8.pos_iff_ne_zero.1 pos) as
        exact ⟨iff_of_false (by decide) lt.asymm, iff_of_false (by decide) lt.ne'⟩
      · have zero : c = 0 := by
          by_contra ne
          exact pos (UInt8.pos_iff_ne_zero.2 ne)
        rw [zero, key_zero]
        decide
    | cons d bs =>
      rw [strcmp]
      split_ifs with both gt same
      · obtain ⟨ne, rfl⟩ := both
        rw [key_cons ne, key_cons ne, List.cons_lt_cons_iff, List.cons.injEq]
        have head : ¬ c.toNat < c.toNat := lt_irrefl _
        simpa only [head, false_or, true_and] using ih bs
      · have lt := key_lt gt bs as
        exact ⟨iff_of_false (by decide) lt.asymm, iff_of_false (by decide) lt.ne'⟩
      · have zero : c = 0 := by
          by_contra ne
          exact both ⟨ne, same⟩
        rw [← same, zero, key_zero, key_zero]
        decide
      · have less : c < d := by
          have ne := mt UInt8.toNat_inj.1 same
          have le := mt UInt8.lt_iff_toNat_lt.2 gt
          exact UInt8.lt_iff_toNat_lt.2 (by omega)
        have lt := key_lt less as bs
        exact ⟨iff_of_true (by decide) lt, iff_of_false (by decide) lt.ne⟩

/-- `strcmp` is `0` for buffers with the same string. -/
lemma strcmp_eq_zero {a b : List UInt8} : strcmp a b = 0 ↔ cstring a = cstring b :=
  (strcmp_spec a b).2.trans key_inj

section

variable {β : Type} [LinearOrder β] {f : Nat → Nat → Int} {rank : Nat → β}

/-- A pass of the sort rearranges the places. -/
lemma sortPass_perm (f : Nat → Nat → Int) (a : Nat) (data : List Nat) :
    ((sortPass f a data).1 :: (sortPass f a data).2).Perm (a :: data) := by
  induction data generalizing a with
  | nil => exact .refl _
  | cons b data ih =>
    rw [sortPass]
    split_ifs
    · exact (List.Perm.swap ..).trans ((ih b).cons a)
    · exact (List.Perm.swap ..).trans (((ih a).cons b).trans (.swap ..))

/-- The inner loop puts the largest entry first. -/
lemma sortPass_max (hf : ∀ a b, f a b < 0 ↔ rank a < rank b) (a : Nat) (data : List Nat) :
    rank a ≤ rank (sortPass f a data).1 ∧ ∀ b ∈ (sortPass f a data).2, rank b ≤ rank (sortPass f a data).1 := by
  induction data generalizing a with
  | nil => exact ⟨le_rfl, nofun⟩
  | cons b data ih =>
    rw [sortPass]
    split_ifs with less
    · obtain ⟨first, rest⟩ := ih b
      have le := ((hf a b).1 less).le.trans first
      exact ⟨le, List.forall_mem_cons.2 ⟨le, rest⟩⟩
    · obtain ⟨first, rest⟩ := ih a
      have le : rank b ≤ rank a := not_lt.1 fun lt => less ((hf a b).2 lt)
      exact ⟨first, List.forall_mem_cons.2 ⟨le.trans first, rest⟩⟩

/-- The sort rearranges the places. -/
lemma qsort_perm (f : Nat → Nat → Int) (num : Nat) (data : List Nat) : (qsort f num data).Perm data := by
  induction num generalizing data with
  | zero => exact .refl _
  | succ num ih =>
    cases data with
    | nil => exact .refl _
    | cons a data => exact ((ih _).cons _).trans (sortPass_perm f a data)

/-- The places are in the order of the comparison after enough passes. -/
lemma qsort_sorted (hf : ∀ a b, f a b < 0 ↔ rank a < rank b) {num : Nat} {data : List Nat}
    (enough : data.length ≤ num) : (qsort f num data).Pairwise fun a b => rank b ≤ rank a := by
  induction num generalizing data with
  | zero =>
    rw [List.length_eq_zero_iff.1 (Nat.le_zero.1 enough)]
    exact .nil
  | succ num ih =>
    cases data with
    | nil => exact .nil
    | cons a data =>
      have length := (sortPass_perm f a data).length_eq
      rw [List.length_cons, List.length_cons] at length
      rw [List.length_cons] at enough
      refine List.pairwise_cons.2 ⟨?_, ih (by omega)⟩
      intro b mem
      exact (sortPass_max hf a data).2 b ((qsort_perm f num _).subset mem)

end

/-- The places of the entries in the order of the names, the last name first. -/
lemma sortdir_sorted (d : List SfsDir) (nd : Nat) :
    (sortdir d nd).Pairwise fun a b => key (entryAt d b).name ≤ key (entryAt d a).name := by
  have less : ∀ a b, strcmp (entryAt d a).name (entryAt d b).name < 0 ↔
      key (entryAt d a).name < key (entryAt d b).name := fun _ _ => (strcmp_spec _ _).1
  exact qsort_sorted less (by rw [List.length_range])

/-- The sorted places are all places. -/
lemma sortdir_perm (d : List SfsDir) (nd : Nat) : (sortdir d nd).Perm (List.range nd) := qsort_perm _ _ _

/-- `checknullstring` does not change the size of the buffer. -/
lemma length_checknullstring (buf : List UInt8) : (checknullstring buf).1.length = buf.length := by
  rw [checknullstring]
  split_ifs
  · rfl
  · exact List.length_set

/-- A buffer has a terminator afterwards. -/
lemma zero_mem_checknullstring {buf : List UInt8} (pos : 0 < buf.length) : 0 ∈ (checknullstring buf).1 := by
  rw [checknullstring]
  split_ifs with mem
  · exact mem
  · exact List.mem_set (by omega) 0

/-- A buffer that was terminated is as it was. -/
lemma checknullstring_of_false {buf : List UInt8} (good : (checknullstring buf).2 = false) :
    (checknullstring buf).1 = buf := by
  rw [checknullstring] at good ⊢
  split_ifs at good ⊢
  rfl

/-- `checkbadstring` does not change the size of the buffer. -/
lemma length_checkbadstring (buf : List UInt8) : (checkbadstring buf).1.length = buf.length := by
  induction buf with
  | nil => rfl
  | cons c buf ih =>
    rw [checkbadstring]
    split_ifs
    · rfl
    · rw [List.length_cons, List.length_cons, ih]
    · rw [List.length_cons, List.length_cons, ih]

/-- A terminator stays in the buffer. -/
lemma zero_mem_checkbadstring {buf : List UInt8} (mem : 0 ∈ buf) : 0 ∈ (checkbadstring buf).1 := by
  induction buf with
  | nil => exact mem
  | cons c buf ih =>
    rw [checkbadstring]
    split_ifs with zero bad
    · exact mem
    · exact List.mem_cons_of_mem _ (ih ((List.mem_cons.1 mem).resolve_left (Ne.symm zero)))
    · exact List.mem_cons_of_mem _ (ih ((List.mem_cons.1 mem).resolve_left (Ne.symm zero)))

/-- The characters that a name may have. -/
def Legal (str : List UInt8) : Prop := 58 ∉ str ∧ 47 ∉ str

/-- One more legal character. -/
lemma Legal.cons {c : UInt8} {str : List UInt8} (h : Legal str) (colon : c ≠ 58) (slash : c ≠ 47) : Legal (c :: str) :=
  ⟨List.not_mem_cons_of_ne_of_not_mem (Ne.symm colon) h.1, List.not_mem_cons_of_ne_of_not_mem (Ne.symm slash) h.2⟩

/-- The characters of a string are legal afterwards. -/
lemma legal_checkbadstring (buf : List UInt8) : Legal (cstring (checkbadstring buf).1) := by
  have empty : Legal [] := ⟨List.not_mem_nil, List.not_mem_nil⟩
  induction buf with
  | nil => exact empty
  | cons c buf ih =>
    rw [checkbadstring]
    split_ifs with zero bad
    · rw [cstring_cons, if_pos zero]
      exact empty
    · rw [cstring_cons, if_neg (by decide)]
      exact ih.cons (by decide) (by decide)
    · rw [cstring_cons, if_neg zero]
      exact ih.cons (fun eq => bad (.inl eq)) (fun eq => bad (.inr eq))

/-- A string without bad characters is as it was. -/
lemma checkbadstring_of_false {buf : List UInt8} (good : (checkbadstring buf).2 = false) :
    (checkbadstring buf).1 = buf := by
  induction buf with
  | nil => rfl
  | cons c buf ih =>
    rw [checkbadstring] at good ⊢
    by_cases zero : c = 0
    · rw [if_pos zero]
    · rw [if_neg zero] at good ⊢
      by_cases bad : c = 58 ∨ c = 47
      · rw [if_pos bad] at good
        cases good
      · rw [if_neg bad] at good ⊢
        dsimp only at good ⊢
        rw [ih good]

/-- A string of legal characters that ends before the buffer does. -/
structure ShortName (str : List UInt8) : Prop where
  short : str.length < 60
  zero : 0 ∉ str
  legal : Legal str

/-- `"."` is a short name. -/
lemma shortName_dot : ShortName dot := ⟨by decide, by decide, by decide, by decide⟩

/-- `".."` is a short name. -/
lemma shortName_dotdot : ShortName dotdot := ⟨by decide, by decide, by decide, by decide⟩

/-- The characters of a number. -/
lemma legal_digit {n : Nat} {ch : Char} (mem : ch ∈ Nat.toDigits 10 n) :
    UInt8.ofNat ch.toNat ≠ 0 ∧ UInt8.ofNat ch.toNat ≠ 58 ∧ UInt8.ofNat ch.toNat ≠ 47 := by
  have digit := Nat.isDigit_of_mem_toDigits (by decide) (by decide) mem
  rw [Char.isDigit, Bool.and_eq_true, decide_eq_true_eq, decide_eq_true_eq] at digit
  have ge : 48 ≤ ch.toNat := UInt32.le_iff_toNat_le.1 digit.1
  have le : ch.toNat ≤ 57 := UInt32.le_iff_toNat_le.1 digit.2
  have value : (UInt8.ofNat ch.toNat).toNat = ch.toNat := by
    rw [UInt8.toNat_ofNat', Nat.mod_eq_of_lt (by omega)]
  have other {k : UInt8} (out : k.toNat < 48 ∨ 57 < k.toNat) : UInt8.ofNat ch.toNat ≠ k := by
    intro eq
    rw [eq] at value
    omega
  exact ⟨other (.inl (by decide)), other (.inr (by decide)), other (.inl (by decide))⟩

/-- A name that is made up is short. -/
lemma shortName_fsckString {ino counter : Nat} (hi : ino < 2 ^ 32) (hc : counter < 2 ^ 32) :
    ShortName (fsckString ino counter) := by
  have chars {c : UInt8} (mem : c ∈ fsckString ino counter) : c ≠ 0 ∧ c ≠ 58 ∧ c ≠ 47 := by
    obtain ⟨ch, among, rfl⟩ := List.mem_map.1 mem
    have letters : "FSCK.".toList = ['F', 'S', 'C', 'K', '.'] := rfl
    have mem : ((ch ∈ ['F', 'S', 'C', 'K', '.'] ∨ ch ∈ Nat.toDigits 10 ino) ∨ ch = '.') ∨
        ch ∈ Nat.toDigits 10 counter := by
      simpa only [letters, List.mem_append, List.mem_singleton] using among
    have letter : ∀ ch ∈ ['F', 'S', 'C', 'K', '.'],
        UInt8.ofNat ch.toNat ≠ 0 ∧ UInt8.ofNat ch.toNat ≠ 58 ∧ UInt8.ofNat ch.toNat ≠ 47 := by
      intro ch mem
      simp only [List.mem_cons, List.not_mem_nil, or_false] at mem
      rcases mem with rfl | rfl | rfl | rfl | rfl <;> decide
    rcases mem with ((mem | mem) | rfl) | mem
    · exact letter ch mem
    · exact legal_digit mem
    · exact letter '.' (by decide)
    · exact legal_digit mem
  have length {n : Nat} (lt : n < 2 ^ 32) : (Nat.toDigits 10 n).length ≤ 10 := by
    have lt' : n < 10 ^ 10 := by omega
    exact (Nat.length_toDigits_le_iff (by decide) (by decide)).2 lt'
  refine ⟨?_, fun mem => (chars mem).1 rfl, fun mem => (chars mem).2.1 rfl, fun mem => (chars mem).2.2 rfl⟩
  have first := length hi
  have second := length hc
  have all : (fsckString ino counter).length =
      5 + (Nat.toDigits 10 ino).length + 1 + (Nat.toDigits 10 counter).length := by
    unfold fsckString
    simp only [List.length_map, List.length_append, List.length_singleton]
    rfl
  omega

/-- The string of a buffer that begins with a string and a terminator. -/
lemma cstring_append_zero {str : List UInt8} (zero : 0 ∉ str) (rest : List UInt8) :
    cstring (str ++ 0 :: rest) = str := by
  induction str with
  | nil => rfl
  | cons c str ih =>
    have ne : c ≠ 0 := fun eq => zero (eq ▸ List.mem_cons_self)
    rw [List.cons_append, cstring_cons, if_neg ne, ih fun mem => zero (List.mem_cons_of_mem _ mem)]

/-- An entry that fits into its bytes on the disk. -/
structure Fits (sfd : SfsDir) : Prop where
  ino : sfd.ino < 2 ^ 32
  length : sfd.name.length = 60

/-- An entry in order. -/
structure Named (sfd : SfsDir) : Prop extends Fits sfd where
  free : sfd.ino = 0 → cstring sfd.name = []
  terminated : 0 ∈ sfd.name
  legal : Legal (cstring sfd.name)

/-- An entry that gets a short name fits into its bytes still. -/
lemma fits_strcpy {str : List UInt8} (h : Fits sfd) (name : ShortName str) (ino : Nat) (lt : ino < 2 ^ 32) :
    Fits ⟨ino, strcpy sfd.name str⟩ := by
  refine ⟨lt, ?_⟩
  have short := name.short
  have length := h.length
  rw [strcpy, List.length_append, List.length_cons, List.length_drop]
  omega

/-- An entry that has got a name. -/
lemma named_strcpy {str : List UInt8} (h : Fits sfd) (name : ShortName str) {ino : Nat} (lt : ino < 2 ^ 32)
    (used : ino ≠ 0) : Named ⟨ino, strcpy sfd.name str⟩ where
  toFits := fits_strcpy h name ino lt
  free zero := absurd zero used
  terminated := List.mem_append_right _ List.mem_cons_self
  legal := by
    dsimp only
    rw [strcpy, cstring_append_zero name.zero]
    exact name.legal

/-- A buffer that begins with a zero holds the empty string. -/
lemma cstring_of_head {name : List UInt8} (head : name.headD 0 = 0) : cstring name = [] := by
  cases name with
  | nil => rfl
  | cons c name =>
    rw [cstring_cons]
    exact if_pos head

/-- A zero at the beginning makes the string empty. -/
lemma cstring_set_zero (name : List UInt8) : cstring (name.set 0 0) = [] := by
  cases name with
  | nil => rfl
  | cons c name => rfl

/-- An entry with an empty name. -/
lemma named_of_free (h : Fits sfd) (head : cstring sfd.name = []) : Named sfd where
  toFits := h
  free _ := head
  terminated := by
    have length := h.length
    cases name : sfd.name with
    | nil =>
      rw [name] at length
      cases length
    | cons c cs =>
      rw [name, cstring_cons] at head
      split_ifs at head with zero
      exact zero ▸ List.mem_cons_self
  legal := by
    rw [head]
    exact ⟨List.not_mem_nil, List.not_mem_nil⟩

/-- An entry that has been removed is in order. -/
lemma named_removeEntry (h : Fits sfd) : Named (removeEntry sfd) :=
  named_of_free ⟨Nat.two_pow_pos 32, List.length_set.trans h.length⟩ (cstring_set_zero _)

/-- A free entry is in order. -/
lemma named_freeEntry : Named freeEntry := named_of_free ⟨Nat.two_pow_pos 32, rfl⟩ rfl

/-- An entry that has a name keeps it, and one without gets one that fits. -/
lemma nameEntry_spec {r : SfsDir × Bool} (run : nameEntry sfd s = .ok (.ok r, s')) (fits : Fits sfd)
    (counter : s.uniquecounter < 2 ^ 32) : Fits r.1 ∧ r.1.ino = sfd.ino ∧ (r.2 = false → r.1 = sfd) := by
  rw [nameEntry] at run
  split_ifs at run
  · obtain ⟨name, s₁, made, run⟩ := Prog.ok_of_andThen run
    obtain ⟨_, s₂, -, run⟩ := Prog.ok_of_andThen run
    obtain ⟨rfl, rfl⟩ := Prog.ok_of_pure run
    obtain ⟨_, _, got, made⟩ := Prog.ok_of_andThen made
    cases got
    obtain ⟨_, _, -, made⟩ := Prog.ok_of_andThen made
    obtain ⟨rfl, -⟩ := Prog.ok_of_pure made
    exact ⟨fits_strcpy fits (shortName_fsckString fits.ino counter) _ fits.ino, rfl, nofun⟩
  · obtain ⟨rfl, rfl⟩ := Prog.ok_of_pure run
    exact ⟨fits, rfl, fun _ => rfl⟩

/-- What is known of an entry that has been checked. -/
lemma checkDirEntry_spec {r : SfsDir × Bool} (run : checkDirEntry sfd s = .ok (.ok r, s')) (fits : Fits sfd)
    (counter : s.uniquecounter < 2 ^ 32) : Named r.1 ∧ (r.2 = false → r.1 = sfd) := by
  rw [checkDirEntry] at run
  split_ifs at run with free head
  · obtain ⟨_, _, -, run⟩ := Prog.ok_of_andThen run
    obtain ⟨rfl, rfl⟩ := Prog.ok_of_pure run
    exact ⟨named_of_free ⟨fits.ino, List.length_set.trans fits.length⟩ (cstring_set_zero _), nofun⟩
  · obtain ⟨rfl, rfl⟩ := Prog.ok_of_pure run
    exact ⟨named_of_free fits (cstring_of_head (not_not.1 head)), fun _ => rfl⟩
  · obtain ⟨r₁, s₁, named, run⟩ := Prog.ok_of_andThen run
    obtain ⟨_, s₂, -, run⟩ := Prog.ok_of_andThen run
    obtain ⟨_, s₃, -, run⟩ := Prog.ok_of_andThen run
    obtain ⟨rfl, rfl⟩ := Prog.ok_of_pure run
    obtain ⟨fits₁, same, keep⟩ := nameEntry_spec named fits counter
    refine ⟨⟨⟨fits₁.ino, ?_⟩, fun zero => absurd (same.symm.trans zero) free, ?_, legal_checkbadstring _⟩, ?_⟩
    · exact (length_checkbadstring _).trans ((length_checknullstring _).trans fits₁.length)
    · refine zero_mem_checkbadstring (zero_mem_checknullstring ?_)
      rw [fits₁.length]
      decide
    · intro unchanged
      rw [Bool.or_eq_false_iff, Bool.or_eq_false_iff] at unchanged
      dsimp only
      rw [checkbadstring_of_false unchanged.2, checknullstring_of_false unchanged.1.2, keep unchanged.1.1]

/-- The entries are in order when they have been checked one by one. -/
lemma checkDirEntries_spec {r : List SfsDir × Bool} (run : checkDirEntries d s = .ok (.ok r, s'))
    (fits : ∀ sfd ∈ d, Fits sfd) (counter : s.uniquecounter < 2 ^ 32) :
    (∀ sfd ∈ r.1, Named sfd) ∧ r.1.length = d.length ∧ (r.2 = false → r.1 = d) := by
  induction d generalizing s r with
  | nil =>
    obtain ⟨rfl, rfl⟩ := Prog.ok_of_pure run
    exact ⟨nofun, rfl, fun _ => rfl⟩
  | cons sfd d ih =>
    obtain ⟨r₁, s₁, first, run⟩ := Prog.ok_of_andThen run
    obtain ⟨r₂, s₂, rest, run⟩ := Prog.ok_of_andThen run
    obtain ⟨rfl, rfl⟩ := Prog.ok_of_pure run
    obtain ⟨named₁, keep₁⟩ := checkDirEntry_spec first (fits sfd List.mem_cons_self) counter
    obtain ⟨named₂, length, keep₂⟩ := ih rest (fun e mem => fits e (List.mem_cons_of_mem _ mem))
      (((notes_checkDirEntry sfd).keeps.of_ok first).counter counter)
    refine ⟨List.forall_mem_cons.2 ⟨named₁, named₂⟩, congrArg (· + 1) length, ?_⟩
    intro unchanged
    rw [Bool.or_eq_false_iff] at unchanged
    dsimp only
    rw [keep₁ unchanged.1, keep₂ unchanged.2]

/-! ## Different names -/

/-- No two entries that are in use have the same name. -/
def Distinct (e : Nat → SfsDir) : Prop :=
  ∀ i j, (e i).ino ≠ 0 → (e j).ino ≠ 0 → cstring (e i).name = cstring (e j).name → i = j

/-- The names that the loop over the neighbours makes up are not in use when it does. -/
def FreshNames : List Nat → List SfsDir → Nat → Prop
  | a :: b :: sortvector, d, counter =>
    let d1 := entryAt d a
    let d2 := entryAt d b
    if d1.ino = 0 then FreshNames (b :: sortvector) d counter
    else if strcmp d1.name d2.name = 0 then
      if d1.ino = d2.ino then FreshNames (b :: sortvector) (d.set a (removeEntry d1)) counter
      else
        (∀ sfd ∈ d, sfd.ino ≠ 0 → cstring sfd.name ≠ fsckString d1.ino counter) ∧
          FreshNames (b :: sortvector) (d.set a { d1 with name := strcpy d1.name (fsckString d1.ino counter) })
            (wadd 32 counter 1)
    else FreshNames (b :: sortvector) d counter
  | _, _, _ => True

/-- The entry at a place of the list. -/
lemma entryAt_of_lt {i : Nat} (lt : i < d.length) : entryAt d i = d[i] := List.getD_eq_getElem d freeEntry lt

/-- Behind the list there are free entries. -/
lemma entryAt_of_le {i : Nat} (le : d.length ≤ i) : entryAt d i = freeEntry := List.getD_eq_default d freeEntry le

/-- An entry in use is in the list. -/
lemma lt_of_used {i : Nat} (used : (entryAt d i).ino ≠ 0) : i < d.length := by
  by_contra ge
  rw [entryAt_of_le (Nat.le_of_not_lt ge)] at used
  exact used rfl

/-- An entry in use is one of the list. -/
lemma entryAt_mem {i : Nat} (used : (entryAt d i).ino ≠ 0) : entryAt d i ∈ d := by
  rw [entryAt_of_lt (lt_of_used used)]
  exact List.getElem_mem _

/-- The entries at all places are in order. -/
lemma named_entryAt (named : ∀ sfd ∈ d, Named sfd) (i : Nat) : Named (entryAt d i) := by
  by_cases lt : i < d.length
  · rw [entryAt_of_lt lt]
    exact named _ (List.getElem_mem lt)
  · rw [entryAt_of_le (Nat.le_of_not_lt lt)]
    exact named_freeEntry

/-- A place that has been set. -/
lemma entryAt_set_self {i : Nat} (lt : i < d.length) (e : SfsDir) : entryAt (d.set i e) i = e := by
  rw [entryAt_of_lt (by rwa [List.length_set]), List.getElem_set_self]

/-- The other places are as they were. -/
lemma entryAt_set_ne {i j : Nat} (ne : i ≠ j) (e : SfsDir) : entryAt (d.set i e) j = entryAt d j := by
  rw [entryAt, entryAt, List.getD_eq_getElem?_getD, List.getD_eq_getElem?_getD, List.getElem?_set_ne ne]

/-- The state of the loop over the neighbours: the entries that it has left behind have names of their own, and those
to come are sorted. -/
structure Sorting (sortvector : List Nat) (d : List SfsDir) : Prop where
  nodup : sortvector.Nodup
  sorted : sortvector.Pairwise fun a b => key (entryAt d b).name ≤ key (entryAt d a).name
  settled : ∀ i j, i ∉ sortvector → i ≠ j → (entryAt d i).ino ≠ 0 → (entryAt d j).ino ≠ 0 →
    cstring (entryAt d i).name ≠ cstring (entryAt d j).name

/-- The entry in front is left behind, as it is or with other contents. -/
lemma Sorting.next {a : Nat} {v : List Nat} (h : Sorting (a :: v) d) (e : SfsDir) (lt : a < d.length)
    (own : e.ino ≠ 0 → ∀ j, j ≠ a → (entryAt d j).ino ≠ 0 → cstring e.name ≠ cstring (entryAt d j).name) :
    Sorting v (d.set a e) := by
  obtain ⟨out, nodup⟩ := List.nodup_cons.1 h.nodup
  refine ⟨nodup, ?_, ?_⟩
  · refine (List.pairwise_cons.1 h.sorted).2.imp_of_mem ?_
    intro x y hx hy le
    have ne {z : Nat} (mem : z ∈ v) : a ≠ z := fun eq => out (eq ▸ mem)
    rwa [entryAt_set_ne (ne hx), entryAt_set_ne (ne hy)]
  · intro i j mem ne
    by_cases hi : i = a
    · subst hi
      rw [entryAt_set_self lt, entryAt_set_ne ne]
      exact fun used => own used j (Ne.symm ne)
    · have notMem : i ∉ a :: v := List.not_mem_cons_of_ne_of_not_mem hi mem
      rw [entryAt_set_ne (Ne.symm hi)]
      by_cases hj : j = a
      · subst hj
        rw [entryAt_set_self lt]
        exact fun used used' eq => own used' i hi used eq.symm
      · rw [entryAt_set_ne (Ne.symm hj)]
        exact h.settled i j notMem ne

/-- The entry in front is left behind as it is. -/
lemma Sorting.keep {a : Nat} {v : List Nat} (h : Sorting (a :: v) d)
    (own : (entryAt d a).ino ≠ 0 → ∀ j, j ≠ a → (entryAt d j).ino ≠ 0 →
      cstring (entryAt d a).name ≠ cstring (entryAt d j).name) : Sorting v d := by
  refine ⟨(List.nodup_cons.1 h.nodup).2, (List.pairwise_cons.1 h.sorted).2, ?_⟩
  intro i j mem ne
  by_cases hi : i = a
  · subst hi
    exact fun used => own used j (Ne.symm ne)
  · exact h.settled i j (List.not_mem_cons_of_ne_of_not_mem hi mem) ne

/-- When all places have been passed, the names are distinct. -/
lemma Sorting.distinct (h : Sorting [] d) : Distinct (entryAt d) := by
  intro i j used used' eq
  by_contra ne
  exact h.settled i j List.not_mem_nil ne used used' eq

/-- `setbadness` leaves the counter alone. -/
lemma counter_setbadness {code : Nat} {u : Unit} (run : setbadness code s = .ok (.ok u, s')) :
    s'.uniquecounter = s.uniquecounter := by
  cases run
  dsimp only
  split_ifs
  · rfl
  · rfl

/-- The entries stay in order when one in order is put among them. -/
lemma named_set {i : Nat} {e : SfsDir} (named : ∀ sfd ∈ d, Named sfd) (h : Named e) : ∀ sfd ∈ d.set i e, Named sfd := by
  intro sfd mem
  cases List.mem_or_eq_of_mem_set mem with
  | inl mem => exact named sfd mem
  | inr eq => exact eq ▸ h

/-- An entry whose name is not that of its neighbour has a name of its own. -/
lemma Sorting.own_of_ne {a b : Nat} {v : List Nat} (h : Sorting (a :: b :: v) d)
    (differ : strcmp (entryAt d a).name (entryAt d b).name ≠ 0) (used : (entryAt d a).ino ≠ 0) {j : Nat} (ne : j ≠ a)
    (used' : (entryAt d j).ino ≠ 0) : cstring (entryAt d a).name ≠ cstring (entryAt d j).name := by
  obtain ⟨above, sorted⟩ := List.pairwise_cons.1 h.sorted
  have lt : key (entryAt d b).name < key (entryAt d a).name :=
    (above b List.mem_cons_self).lt_of_ne fun eq => differ ((strcmp_spec _ _).2.2 eq.symm)
  by_cases mem : j ∈ b :: v
  · have le : key (entryAt d j).name ≤ key (entryAt d b).name := by
      cases List.mem_cons.1 mem with
      | inl eq => rw [eq]
      | inr mem => exact (List.pairwise_cons.1 sorted).1 j mem
    intro eq
    exact (le.trans_lt lt).ne (key_inj.2 eq.symm)
  · intro eq
    exact h.settled j a (List.not_mem_cons_of_ne_of_not_mem ne mem) ne used' used eq.symm

/-- The first of two neighbours is left as it is, removed or renamed. -/
lemma checkDuplicates_cons {a b : Nat} {v : List Nat} {r : List SfsDir × Bool}
    (run : checkDuplicates (a :: b :: v) d s = .ok (.ok r, s')) :
    (((entryAt d a).ino = 0 ∨ strcmp (entryAt d a).name (entryAt d b).name ≠ 0) ∧
      checkDuplicates (b :: v) d s = .ok (.ok r, s')) ∨
    ((entryAt d a).ino ≠ 0 ∧ strcmp (entryAt d a).name (entryAt d b).name = 0 ∧ (entryAt d a).ino = (entryAt d b).ino ∧
      ∃ s₁ r₁, s₁.uniquecounter = s.uniquecounter ∧
        checkDuplicates (b :: v) (d.set a (removeEntry (entryAt d a))) s₁ = .ok (.ok r₁, s') ∧ r = (r₁.1, true)) ∨
    ((entryAt d a).ino ≠ 0 ∧ strcmp (entryAt d a).name (entryAt d b).name = 0 ∧ (entryAt d a).ino ≠ (entryAt d b).ino ∧
      ∃ s₁ r₁, s₁.uniquecounter = wadd 32 s.uniquecounter 1 ∧
        checkDuplicates (b :: v) (d.set a { entryAt d a with
          name := strcpy (entryAt d a).name (fsckString (entryAt d a).ino s.uniquecounter) }) s₁ = .ok (.ok r₁, s') ∧
        r = (r₁.1, true)) := by
  rw [checkDuplicates] at run
  obtain ⟨_, s₁, differ, run⟩ := Prog.ok_of_andThen run
  obtain ⟨-, rfl⟩ := Prog.ok_of_require differ
  dsimp only at run
  split_ifs at run with free same merge
  · exact .inl ⟨.inl free, run⟩
  · obtain ⟨_, s₂, set, run⟩ := Prog.ok_of_andThen run
    obtain ⟨r₁, s₃, rest, run⟩ := Prog.ok_of_andThen run
    obtain ⟨rfl, rfl⟩ := Prog.ok_of_pure run
    exact .inr (.inl ⟨free, same, merge, s₂, r₁, counter_setbadness set, rest, rfl⟩)
  · obtain ⟨name, s₂, made, run⟩ := Prog.ok_of_andThen run
    obtain ⟨_, s₃, set, run⟩ := Prog.ok_of_andThen run
    obtain ⟨r₁, s₄, rest, run⟩ := Prog.ok_of_andThen run
    obtain ⟨rfl, rfl⟩ := Prog.ok_of_pure run
    cases made
    exact .inr (.inr ⟨free, same, merge, s₃, r₁, counter_setbadness set, rest, rfl⟩)
  · exact .inl ⟨.inr same, run⟩

/-- Neighbours with different names need no new one. -/
lemma freshNames_keep {a b counter : Nat} {v : List Nat}
    (keep : (entryAt d a).ino = 0 ∨ strcmp (entryAt d a).name (entryAt d b).name ≠ 0) :
    FreshNames (a :: b :: v) d counter ↔ FreshNames (b :: v) d counter := by
  rw [FreshNames]
  by_cases free : (entryAt d a).ino = 0
  · rw [if_pos free]
  · rw [if_neg free, if_neg (keep.resolve_left free)]

/-- Neighbours for one inode need no new name. -/
lemma freshNames_merge {a b counter : Nat} {v : List Nat} (used : (entryAt d a).ino ≠ 0)
    (same : strcmp (entryAt d a).name (entryAt d b).name = 0) (merge : (entryAt d a).ino = (entryAt d b).ino) :
    FreshNames (a :: b :: v) d counter ↔ FreshNames (b :: v) (d.set a (removeEntry (entryAt d a))) counter := by
  rw [FreshNames, if_neg used, if_pos same, if_pos merge]

/-- Neighbours for different inodes need one new name. -/
lemma freshNames_rename {a b counter : Nat} {v : List Nat} (used : (entryAt d a).ino ≠ 0)
    (same : strcmp (entryAt d a).name (entryAt d b).name = 0) (other : (entryAt d a).ino ≠ (entryAt d b).ino) :
    FreshNames (a :: b :: v) d counter ↔
      (∀ sfd ∈ d, sfd.ino ≠ 0 → cstring sfd.name ≠ fsckString (entryAt d a).ino counter) ∧
        FreshNames (b :: v) (d.set a { entryAt d a with
          name := strcpy (entryAt d a).name (fsckString (entryAt d a).ino counter) }) (wadd 32 counter 1) := by
  rw [FreshNames, if_neg used, if_pos same, if_neg other]

/-- By induction on the entries that are left, which stay sorted. -/
lemma checkDuplicates_spec {v : List Nat} {r : List SfsDir × Bool} (run : checkDuplicates v d s = .ok (.ok r, s'))
    (named : ∀ sfd ∈ d, Named sfd) (counter : s.uniquecounter < 2 ^ 32) (sorting : Sorting v d)
    (fresh : FreshNames v d s.uniquecounter) :
    (∀ sfd ∈ r.1, Named sfd) ∧ r.1.length = d.length ∧ Distinct (entryAt r.1) ∧ (r.2 = false → r.1 = d) := by
  induction v generalizing d s r with
  | nil =>
    obtain ⟨rfl, rfl⟩ := Prog.ok_of_pure run
    exact ⟨named, rfl, sorting.distinct, fun _ => rfl⟩
  | cons a v ih =>
    cases v with
    | nil =>
      obtain ⟨rfl, rfl⟩ := Prog.ok_of_pure run
      have last : Sorting [] d := sorting.keep fun used j ne used' eq =>
        sorting.settled j a (List.not_mem_cons_of_ne_of_not_mem ne List.not_mem_nil) ne used' used eq.symm
      exact ⟨named, rfl, last.distinct, fun _ => rfl⟩
    | cons b v =>
      rcases checkDuplicates_cons run with ⟨keep, run⟩ | ⟨used, same, merge, s₁, r₁, count, rest, rfl⟩ |
        ⟨used, same, other, s₁, r₁, count, rest, rfl⟩
      · refine ih run named counter (sorting.keep ?_) ((freshNames_keep keep).1 fresh)
        intro used j ne used'
        exact sorting.own_of_ne (keep.resolve_left used) used ne used'
      · have fresh := (freshNames_merge used same merge).1 fresh
        obtain ⟨named', length, distinct, -⟩ := ih rest
          (named_set named (named_removeEntry (named_entryAt named a).toFits)) (count ▸ counter)
          (sorting.next _ (lt_of_used used) fun used => absurd rfl used) (count ▸ fresh)
        exact ⟨named', length.trans List.length_set, distinct, nofun⟩
      · obtain ⟨new, fresh⟩ := (freshNames_rename used same other).1 fresh
        have fits := (named_entryAt named a).toFits
        have short := shortName_fsckString fits.ino counter
        obtain ⟨named', length, distinct, -⟩ := ih rest (named_set named (named_strcpy fits short fits.ino used))
          (count ▸ wadd_lt _ _ _) (sorting.next _ (lt_of_used used) fun _ j _ used => by
            rw [strcpy, cstring_append_zero short.zero]
            exact (new _ (entryAt_mem used) used).symm) (count ▸ fresh)
        exact ⟨named', length.trans List.length_set, distinct, nofun⟩

/-- The loop over the neighbours starts with all places, in order. -/
lemma sorting_sortdir (d : List SfsDir) : Sorting (sortdir d d.length) d where
  nodup := (sortdir_perm d d.length).nodup_iff.2 List.nodup_range
  sorted := sortdir_sorted d d.length
  settled i j out _ used := by
    have mem : i ∈ sortdir d d.length := (sortdir_perm d d.length).symm.subset (List.mem_range.2 (lt_of_used used))
    exact absurd mem out

/-- The inode number of an entry, if it is `"."` or `".."`, is set right. -/
def fixDot (ino parentino : Nat) (sfd : SfsDir) : SfsDir :=
  if strcmp sfd.name dot = 0 then { sfd with ino := ino }
  else if strcmp sfd.name dotdot = 0 then { sfd with ino := parentino }
  else sfd

variable {ino parentino : Nat}

/-- The inode number is right afterwards. -/
lemma fixIno_spec {r : SfsDir × Bool} (run : fixIno ino sfd s = .ok (.ok r, s')) :
    r.1 = { sfd with ino := ino } ∧ (r.2 = false → r.1 = sfd) := by
  rw [fixIno] at run
  split_ifs at run with wrong
  · obtain ⟨_, _, -, run⟩ := Prog.ok_of_andThen run
    obtain ⟨rfl, rfl⟩ := Prog.ok_of_pure run
    exact ⟨rfl, nofun⟩
  · obtain ⟨rfl, rfl⟩ := Prog.ok_of_pure run
    refine ⟨?_, fun _ => rfl⟩
    rw [← not_not.1 wrong]

/-- What becomes of the entries, and which have not been seen. -/
structure Dotted (ino parentino : Nat) (d : List SfsDir) (r : List SfsDir × Dots × Bool) : Prop where
  fixed : r.1 = d.map (fixDot ino parentino)
  dot : r.2.1.dotseen = false → ∀ sfd ∈ d, cstring sfd.name ≠ dot
  dotdot : r.2.1.dotdotseen = false → ∀ sfd ∈ d, cstring sfd.name ≠ dotdot
  keep : r.2.2 = false → r.1 = d

/-- An entry is `"."`, `".."` or neither. -/
lemma checkDots_cons {seen : Dots} {r : List SfsDir × Dots × Bool}
    (run : checkDots ino parentino (sfd :: d) seen s = .ok (.ok r, s')) :
    (strcmp sfd.name dot = 0 ∧ ∃ r₁ s₁ r₂, fixIno ino sfd s = .ok (.ok r₁, s₁) ∧
      checkDots ino parentino d { seen with dotseen := true } s₁ = .ok (.ok r₂, s') ∧
      r = (r₁.1 :: r₂.1, r₂.2.1, r₁.2 || r₂.2.2)) ∨
    (strcmp sfd.name dot ≠ 0 ∧ strcmp sfd.name dotdot = 0 ∧ ∃ r₁ s₁ r₂, fixIno parentino sfd s = .ok (.ok r₁, s₁) ∧
      checkDots ino parentino d { seen with dotdotseen := true } s₁ = .ok (.ok r₂, s') ∧
      r = (r₁.1 :: r₂.1, r₂.2.1, r₁.2 || r₂.2.2)) ∨
    (strcmp sfd.name dot ≠ 0 ∧ strcmp sfd.name dotdot ≠ 0 ∧ ∃ r₂, checkDots ino parentino d seen s = .ok (.ok r₂, s') ∧
      r = (sfd :: r₂.1, r₂.2)) := by
  rw [checkDots] at run
  split_ifs at run with isDot isDotdot
  · obtain ⟨r₁, s₁, fix, run⟩ := Prog.ok_of_andThen run
    obtain ⟨_, _, once, run⟩ := Prog.ok_of_andThen run
    obtain ⟨-, rfl⟩ := Prog.ok_of_require once
    obtain ⟨r₂, _, rest, run⟩ := Prog.ok_of_andThen run
    obtain ⟨rfl, rfl⟩ := Prog.ok_of_pure run
    exact .inl ⟨isDot, r₁, s₁, r₂, fix, rest, rfl⟩
  · obtain ⟨r₁, s₁, fix, run⟩ := Prog.ok_of_andThen run
    obtain ⟨_, _, once, run⟩ := Prog.ok_of_andThen run
    obtain ⟨-, rfl⟩ := Prog.ok_of_require once
    obtain ⟨r₂, _, rest, run⟩ := Prog.ok_of_andThen run
    obtain ⟨rfl, rfl⟩ := Prog.ok_of_pure run
    exact .inr (.inl ⟨isDot, isDotdot, r₁, s₁, r₂, fix, rest, rfl⟩)
  · obtain ⟨r₂, _, rest, run⟩ := Prog.ok_of_andThen run
    obtain ⟨rfl, rfl⟩ := Prog.ok_of_pure run
    exact .inr (.inr ⟨isDot, isDotdot, r₂, rest, rfl⟩)

/-- What has been seen stays seen. -/
lemma checkDots_seen {seen : Dots} {r : List SfsDir × Dots × Bool}
    (run : checkDots ino parentino d seen s = .ok (.ok r, s')) :
    (r.2.1.dotseen = false → seen.dotseen = false) ∧ (r.2.1.dotdotseen = false → seen.dotdotseen = false) := by
  induction d generalizing s seen r with
  | nil =>
    obtain ⟨rfl, rfl⟩ := Prog.ok_of_pure run
    exact ⟨id, id⟩
  | cons sfd d ih =>
    rcases checkDots_cons run with ⟨-, r₁, s₁, r₂, -, rest, rfl⟩ | ⟨-, -, r₁, s₁, r₂, -, rest, rfl⟩ |
      ⟨-, -, r₂, rest, rfl⟩
    · obtain ⟨dots, dotdots⟩ := ih rest
      exact ⟨fun unseen => (nomatch dots unseen), dotdots⟩
    · obtain ⟨dots, dotdots⟩ := ih rest
      exact ⟨dots, fun unseen => nomatch dotdots unseen⟩
    · obtain ⟨dots, dotdots⟩ := ih rest
      exact ⟨dots, dotdots⟩

/-- The two names are different. -/
lemma dot_ne_dotdot : dot ≠ dotdot := by decide

/-- The loop sets the numbers right and says what it has not seen. -/
lemma checkDots_spec {seen : Dots} {r : List SfsDir × Dots × Bool}
    (run : checkDots ino parentino d seen s = .ok (.ok r, s')) : Dotted ino parentino d r := by
  induction d generalizing s seen r with
  | nil =>
    obtain ⟨rfl, rfl⟩ := Prog.ok_of_pure run
    exact ⟨rfl, fun _ => nofun, fun _ => nofun, fun _ => rfl⟩
  | cons sfd d ih =>
    rcases checkDots_cons run with ⟨isDot, r₁, s₁, r₂, fix, rest, rfl⟩ |
      ⟨isDot, isDotdot, r₁, s₁, r₂, fix, rest, rfl⟩ | ⟨isDot, isDotdot, r₂, rest, rfl⟩
    · obtain ⟨fixed, keep⟩ := fixIno_spec fix
      have h := ih rest
      refine ⟨?_, fun unseen => (nomatch (checkDots_seen rest).1 unseen), fun unseen => ?_, ?_⟩
      · rw [List.map_cons, fixDot, if_pos isDot, ← fixed, ← h.fixed]
      · refine List.forall_mem_cons.2 ⟨?_, h.dotdot unseen⟩
        rw [strcmp_eq_zero.1 isDot]
        exact dot_ne_dotdot
      · intro unchanged
        rw [Bool.or_eq_false_iff] at unchanged
        dsimp only
        rw [keep unchanged.1, h.keep unchanged.2]
    · obtain ⟨fixed, keep⟩ := fixIno_spec fix
      have h := ih rest
      refine ⟨?_, fun unseen => ?_, fun unseen => (nomatch (checkDots_seen rest).2 unseen), ?_⟩
      · rw [List.map_cons, fixDot, if_neg isDot, if_pos isDotdot, ← fixed, ← h.fixed]
      · refine List.forall_mem_cons.2 ⟨?_, h.dot unseen⟩
        rw [strcmp_eq_zero.1 isDotdot]
        exact Ne.symm dot_ne_dotdot
      · intro unchanged
        rw [Bool.or_eq_false_iff] at unchanged
        dsimp only
        rw [keep unchanged.1, h.keep unchanged.2]
    · have h := ih rest
      refine ⟨?_, fun unseen => ?_, fun unseen => ?_, ?_⟩
      · rw [List.map_cons, fixDot, if_neg isDot, if_neg isDotdot, ← h.fixed]
      · exact List.forall_mem_cons.2 ⟨fun eq => isDot (strcmp_eq_zero.2 eq), h.dot unseen⟩
      · exact List.forall_mem_cons.2 ⟨fun eq => isDotdot (strcmp_eq_zero.2 eq), h.dotdot unseen⟩
      · intro unchanged
        dsimp only at unchanged ⊢
        rw [h.keep unchanged]

/-- The entries of a directory in order: those that are in use are among the first `n`. -/
structure Buffer (ino parentino n : Nat) (e : Nat → SfsDir) : Prop where
  named : ∀ i, Named (e i)
  distinct : Distinct e
  dot : ∀ i, cstring (e i).name = dot → (e i).ino = ino
  dotdot : ∀ i, cstring (e i).name = dotdot → (e i).ino = parentino
  rest : ∀ i, n ≤ i → (e i).ino = 0

/-- The name stays. -/
lemma name_fixDot (sfd : SfsDir) : (fixDot ino parentino sfd).name = sfd.name := by
  rw [fixDot]
  split_ifs
  · rfl
  · rfl
  · rfl

/-- A free entry has no name, so that it is neither `"."` nor `".."`. -/
lemma fixDot_of_free (h : Named sfd) (free : sfd.ino = 0) : fixDot ino parentino sfd = sfd := by
  have empty := h.free free
  have other {name : List UInt8} (ne : cstring name ≠ []) : strcmp sfd.name name ≠ 0 := by
    intro eq
    rw [← strcmp_eq_zero.1 eq] at ne
    exact ne empty
  rw [fixDot, if_neg (other (by decide)), if_neg (other (by decide))]

/-- An entry that is in use afterwards was in use before. -/
lemma used_of_fixDot (h : Named sfd) (used : (fixDot ino parentino sfd).ino ≠ 0) : sfd.ino ≠ 0 := by
  intro free
  rw [fixDot_of_free h free] at used
  exact used free

/-- `"."` is the directory itself. -/
lemma fixDot_dot (h : cstring sfd.name = dot) : (fixDot ino parentino sfd).ino = ino := by
  rw [fixDot, if_pos (strcmp_eq_zero.2 h)]

/-- `".."` is its parent. -/
lemma fixDot_dotdot (h : cstring sfd.name = dotdot) : (fixDot ino parentino sfd).ino = parentino := by
  have ne : strcmp sfd.name dot ≠ 0 := by
    intro eq
    exact dot_ne_dotdot ((strcmp_eq_zero.1 eq).symm.trans h)
  rw [fixDot, if_neg ne, if_pos (strcmp_eq_zero.2 h)]

/-- The number of an inode. -/
structure Ino (ino : Nat) : Prop where
  used : ino ≠ 0
  lt : ino < 2 ^ 32

/-- An entry in order stays so. -/
lemma named_fixDot (h : Named sfd) (hi : Ino ino) (hp : Ino parentino) : Named (fixDot ino parentino sfd) := by
  rw [fixDot]
  split_ifs
  · exact ⟨⟨hi.lt, h.length⟩, fun zero => absurd zero hi.used, h.terminated, h.legal⟩
  · exact ⟨⟨hp.lt, h.length⟩, fun zero => absurd zero hp.used, h.terminated, h.legal⟩
  · exact h

/-- The entry at a place, set right. -/
lemma entryAt_map_fixDot (i : Nat) :
    entryAt (d.map (fixDot ino parentino)) i = fixDot ino parentino (entryAt d i) := by
  by_cases lt : i < d.length
  · rw [entryAt_of_lt lt, entryAt_of_lt (by rwa [List.length_map]), List.getElem_map]
  · have le := Nat.le_of_not_lt lt
    rw [entryAt_of_le le, entryAt_of_le (by rwa [List.length_map]), fixDot_of_free named_freeEntry rfl]

/-- The entries once `"."` and `".."` have been looked for. -/
lemma buffer_fixDot (named : ∀ sfd ∈ d, Named sfd) (distinct : Distinct (entryAt d)) (hi : Ino ino)
    (hp : Ino parentino) :
    Buffer ino parentino d.length (entryAt (d.map (fixDot ino parentino))) where
  named i := by
    rw [entryAt_map_fixDot]
    exact named_fixDot (named_entryAt named i) hi hp
  distinct i j := by
    rw [entryAt_map_fixDot, entryAt_map_fixDot, name_fixDot, name_fixDot]
    exact fun used used' => distinct i j (used_of_fixDot (named_entryAt named i) used)
      (used_of_fixDot (named_entryAt named j) used')
  dot i := by
    rw [entryAt_map_fixDot, name_fixDot]
    exact fixDot_dot
  dotdot i := by
    rw [entryAt_map_fixDot, name_fixDot]
    exact fixDot_dotdot
  rest i le := by
    rw [entryAt_of_le (by rwa [List.length_map])]
    rfl

/-- The first free place, if there is one. -/
lemma dirTryadd_some {name : List UInt8} {nd : Nat} {d' : List SfsDir} (add : dirTryadd name ino nd d = some d') :
    ∃ j < nd, j < d.length ∧ (entryAt d j).ino = 0 ∧ (∀ i < j, (entryAt d i).ino ≠ 0) ∧
      d' = d.set j ⟨ino, strcpy (entryAt d j).name name⟩ := by
  induction nd generalizing d d' with
  | zero => cases add
  | succ nd ih =>
    cases d with
    | nil => cases add
    | cons sfd d =>
      rw [dirTryadd] at add
      split_ifs at add with free
      · cases add
        exact ⟨0, Nat.succ_pos _, Nat.succ_pos _, free, nofun, rfl⟩
      · obtain ⟨d₁, rest, rfl⟩ := Option.map_eq_some_iff.1 add
        obtain ⟨j, lt, inside, here, before, rfl⟩ := ih rest
        refine ⟨j + 1, Nat.succ_lt_succ lt, Nat.succ_lt_succ inside, here, ?_, rfl⟩
        intro i lt
        cases i with
        | zero => exact free
        | succ i => exact before i (Nat.lt_of_succ_lt_succ lt)

/-- Where nothing could be added, no place is free. -/
lemma dirTryadd_none {name : List UInt8} {nd : Nat} (full : dirTryadd name ino nd d = none) {i : Nat} (lt : i < nd)
    (inside : i < d.length) : (entryAt d i).ino ≠ 0 := by
  induction nd generalizing d i with
  | zero => cases lt
  | succ nd ih =>
    cases d with
    | nil => cases inside
    | cons sfd d =>
      rw [dirTryadd] at full
      split_ifs at full with free
      cases i with
      | zero => exact free
      | succ i =>
        exact ih (Option.map_eq_none_iff.1 full) (Nat.lt_of_succ_lt_succ lt) (Nat.lt_of_succ_lt_succ inside)

/-- A new entry, of a name that none has. -/
lemma Buffer.add {n n' i : Nat} {name : List UInt8} (h : Buffer ino parentino n (entryAt d)) (le : n ≤ n') (lt : i < n')
    (inside : i < d.length) (new : ∀ j, cstring (entryAt d j).name ≠ name) (short : ShortName name) {target : Nat}
    (hd : name = Sfsck.dot → target = ino) (hdd : name = Sfsck.dotdot → target = parentino) (ht : Ino target) :
    Buffer ino parentino n' (entryAt (d.set i ⟨target, strcpy (entryAt d i).name name⟩)) := by
  have same : cstring (strcpy (entryAt d i).name name) = name := cstring_append_zero short.zero _
  refine ⟨?_, ?_, ?_, ?_, ?_⟩
  · intro j
    by_cases eq : i = j
    · subst eq
      rw [entryAt_set_self inside]
      exact named_strcpy (h.named i).toFits short ht.lt ht.used
    · rw [entryAt_set_ne eq]
      exact h.named j
  · intro j k
    by_cases hj : i = j
    · subst hj
      by_cases hk : i = k
      · exact fun _ _ _ => hk
      · rw [entryAt_set_self inside, entryAt_set_ne hk, same]
        exact fun _ _ eq => absurd eq.symm (new k)
    · rw [entryAt_set_ne hj]
      by_cases hk : i = k
      · subst hk
        rw [entryAt_set_self inside, same]
        exact fun _ _ eq => absurd eq (new j)
      · rw [entryAt_set_ne hk]
        exact h.distinct j k
  · intro j
    by_cases eq : i = j
    · subst eq
      rw [entryAt_set_self inside, same]
      exact hd
    · rw [entryAt_set_ne eq]
      exact h.dot j
  · intro j
    by_cases eq : i = j
    · subst eq
      rw [entryAt_set_self inside, same]
      exact hdd
    · rw [entryAt_set_ne eq]
      exact h.dotdot j
  · intro j ge
    rw [entryAt_set_ne (by omega)]
    exact h.rest j (le.trans ge)

/-- The variables of a call of `check_dir` whose entries are in order. -/
structure Dir.Fine (ino parentino maxdirentries : Nat) (dir : Dir) : Prop where
  length : dir.direntries.length = maxdirentries
  few : dir.ndirentries ≤ maxdirentries
  small : maxdirentries * 64 < 2 ^ 32
  size : dir.sfi.size.toNat = 64 * dir.ndirentries
  buffer : Buffer ino parentino dir.ndirentries (entryAt dir.direntries)

/-- What is added to the entries is noted. -/
structure Dir.Extends (dir r : Dir) : Prop where
  block : r.block = dir.block
  sfi : r.sfi = { dir.sfi with size := r.sfi.size }
  ichanged : r.ichanged = false → dir.ichanged = false ∧ r.sfi = dir.sfi
  dchanged : r.dchanged = false → dir.dchanged = false ∧ r.direntries = dir.direntries ∧ r.ndirentries = dir.ndirentries

/-- Nothing needs to be added. -/
lemma Dir.Extends.refl (dir : Dir) : dir.Extends dir := ⟨rfl, rfl, fun no => ⟨no, rfl⟩, fun no => ⟨no, rfl, rfl⟩⟩

/-- Entries are added one after the other. -/
lemma Dir.Extends.trans {dir r t : Dir} (h : dir.Extends r) (h' : r.Extends t) : dir.Extends t where
  block := h'.block.trans h.block
  sfi := by rw [h'.sfi, h.sfi]
  ichanged no := ⟨(h.ichanged (h'.ichanged no).1).1, (h'.ichanged no).2.trans (h.ichanged (h'.ichanged no).1).2⟩
  dchanged no := by
    obtain ⟨no, d', n'⟩ := h'.dchanged no
    obtain ⟨no, d, n⟩ := h.dchanged no
    exact ⟨no, d'.trans d, n'.trans n⟩

/-- `"."` or `".."` is added if no entry has that name. -/
lemma addDots_spec {name : List UInt8} {target maxdirentries : Nat} {seen : Bool} {dir r : Dir}
    (run : addDots name target maxdirentries seen dir s = .ok (.ok r, s')) (h : dir.Fine ino parentino maxdirentries)
    (new : seen = false → ∀ j, cstring (entryAt dir.direntries j).name ≠ name) (short : ShortName name)
    (hd : name = dot → target = ino) (hdd : name = dotdot → target = parentino) (ht : Ino target) :
    r.Fine ino parentino maxdirentries ∧ dir.Extends r ∧
      ∀ other, other ≠ name → (∀ j, cstring (entryAt dir.direntries j).name ≠ other) →
        ∀ j, cstring (entryAt r.direntries j).name ≠ other := by
  have length := h.length
  have few := h.few
  have others {i : Nat} (inside : i < dir.direntries.length) (other : List UInt8) (ne : other ≠ name)
      (none : ∀ j, cstring (entryAt dir.direntries j).name ≠ other) (j : Nat) :
      cstring (entryAt (dir.direntries.set i ⟨target, strcpy (entryAt dir.direntries i).name name⟩) j).name ≠
        other := by
    by_cases eq : i = j
    · subst eq
      rw [entryAt_set_self inside]
      dsimp only
      rw [strcpy, cstring_append_zero short.zero]
      exact ne.symm
    · rw [entryAt_set_ne eq]
      exact none j
  rw [addDots] at run
  split_ifs at run with unseen
  · obtain ⟨rfl, rfl⟩ := Prog.ok_of_pure run
    exact ⟨h, .refl _, fun _ _ none => none⟩
  · have new := new (Bool.eq_false_of_not_eq_true unseen)
    cases first : dirTryadd name target dir.ndirentries dir.direntries with
    | some d =>
      rw [first] at run
      obtain ⟨_, _, -, run⟩ := Prog.ok_of_andThen run
      obtain ⟨rfl, rfl⟩ := Prog.ok_of_pure run
      obtain ⟨i, lt, inside, -, -, rfl⟩ := dirTryadd_some first
      refine ⟨⟨List.length_set.trans length, few, h.small, h.size, ?_⟩, ⟨rfl, rfl, fun no => ⟨no, rfl⟩, nofun⟩,
        others inside⟩
      exact h.buffer.add le_rfl lt inside new short hd hdd ht
    | none =>
      rw [first] at run
      cases second : dirTryadd name target maxdirentries dir.direntries with
      | some d =>
        rw [second] at run
        obtain ⟨_, _, -, run⟩ := Prog.ok_of_andThen run
        obtain ⟨rfl, rfl⟩ := Prog.ok_of_pure run
        obtain ⟨i, lt, inside, free, before, rfl⟩ := dirTryadd_some second
        -- the first free place is the one after the entries
        have ge : dir.ndirentries ≤ i := by
          by_contra below
          exact dirTryadd_none first (Nat.lt_of_not_le below) inside free
        have le : i ≤ dir.ndirentries := by
          by_contra above
          exact before _ (Nat.lt_of_not_le above) (h.buffer.rest _ le_rfl)
        have small := h.small
        have size := h.size
        refine ⟨⟨List.length_set.trans length, ?_, small, ?_, ?_⟩, ⟨rfl, rfl, nofun, nofun⟩, others inside⟩
        · dsimp only
          omega
        · have grown : (64 : UInt32).toNat = 64 := rfl
          dsimp only
          rw [UInt32.toNat_add, grown, size, Nat.mod_eq_of_lt (by omega)]
          omega
        · exact h.buffer.add (Nat.le_succ _) (Nat.lt_succ_of_le le) inside new short hd hdd ht
      | none =>
        rw [second] at run
        obtain ⟨_, _, -, run⟩ := Prog.ok_of_andThen run
        obtain ⟨rfl, rfl⟩ := Prog.ok_of_pure run
        exact ⟨h, .refl _, fun _ _ none => none⟩

end PDS.Sfsck
