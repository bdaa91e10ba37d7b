import PDS.Sfsck.Names
import PDS.Sfs.Dir

/-!
# Unique names

What the entry check and the loop over the neighbours in `check_dir` leave of the names in a directory. The names that
the loop makes up differ from each other, since each has another value of the counter in it. But a name stays in use
when all the entries but the last that have it are removed or renamed, and nothing compares the names that are made up
with those in use. So the names are different in the end if and only if none that is made up is there already.
-/

namespace PDS.Sfsck
open Sfs Word

variable {s s' : Check} {sfd : SfsDir} {d : List SfsDir} {v : List Nat} {a b c : Nat} {str : List UInt8}

/-- What `check_dir_entry` makes of an entry, where `c` is the counter. -/
def tidyEntry (c : Nat) (sfd : SfsDir) : SfsDir :=
  if sfd.ino = 0 then removeEntry sfd
  else
    let name := if sfd.name.headD 0 = 0 then strcpy sfd.name (fsckString sfd.ino c) else sfd.name
    ⟨sfd.ino, (checkbadstring (checknullstring name).1).1⟩

/-- The counter when an entry has been checked: an entry that is in use and has no name takes a number. -/
def tidyCounter (c : Nat) (sfd : SfsDir) : Nat := if sfd.ino ≠ 0 ∧ sfd.name.headD 0 = 0 then wadd 32 c 1 else c

/-- The entries of a directory when all have been checked, and the counter. -/
def tidy : List SfsDir → Nat → List SfsDir × Nat
  | [], c => ([], c)
  | sfd :: d, c => (tidyEntry c sfd :: (tidy d (tidyCounter c sfd)).1, (tidy d (tidyCounter c sfd)).2)

/-- The counter stays a number of `32` bits. -/
lemma tidyCounter_lt (lt : c < 2 ^ 32) (sfd : SfsDir) : tidyCounter c sfd < 2 ^ 32 := by
  rw [tidyCounter]
  split_ifs
  · exact wadd_lt _ _ _
  · exact lt

/-- So it does over all the entries. -/
lemma tidy_counter_lt (lt : c < 2 ^ 32) (d : List SfsDir) : (tidy d c).2 < 2 ^ 32 := by
  induction d generalizing c with
  | nil => exact lt
  | cons sfd d ih => exact ih (tidyCounter_lt lt sfd)

/-- The rest of a run in which something bad is noted. -/
lemma wp_setbadness {code : Nat} {Q : Unit → Check → Prop} {E : Nat → Check → Prop}
    (post : ∀ t : Check, t.uniquecounter = s.uniquecounter → Q () t) : Prog.wp (setbadness code) Q E s := by
  rw [setbadness, Prog.wp_modify_iff]
  split_ifs
  · exact post _ rfl
  · exact post _ rfl

/-- Rule for a call of `setbadness`, which leaves the counter alone. -/
lemma wp_when_setbadness {p : Prop} [Decidable p] {code : Nat} {Q : Unit → Check → Prop} {E : Nat → Check → Prop}
    (post : ∀ t : Check, t.uniquecounter = s.uniquecounter → Q () t) :
    Prog.wp (Prog.when p (setbadness code)) Q E s := by
  rw [Prog.when]
  split_ifs
  · exact wp_setbadness post
  · exact post s rfl

/-- Rule for a name that is made up, which takes a number. -/
lemma wp_fsckName {ino : Nat} {name : List UInt8} {Q : List UInt8 → Check → Prop} {E : Nat → Check → Prop}
    (post : ∀ t : Check, t.uniquecounter = wadd 32 s.uniquecounter 1 →
      Q (strcpy name (fsckString ino s.uniquecounter)) t) : Prog.wp (fsckName ino name) Q E s :=
  post _ rfl

/-- An entry that is free already is removed without a change. -/
lemma removeEntry_of_free (free : sfd.ino = 0) (head : sfd.name.headD 0 = 0) : removeEntry sfd = sfd := by
  obtain ⟨ino, name⟩ := sfd
  cases free
  cases name with
  | nil => rfl
  | cons ch name =>
    cases head
    rfl

/-- An entry is checked. -/
lemma wp_checkDirEntry (sfd : SfsDir) {E : Nat → Check → Prop} :
    Prog.wp (checkDirEntry sfd) (fun r t => r.1 = tidyEntry s.uniquecounter sfd ∧
      t.uniquecounter = tidyCounter s.uniquecounter sfd) E s := by
  rw [checkDirEntry, tidyEntry, tidyCounter]
  by_cases free : sfd.ino = 0
  · have named : ¬(sfd.ino ≠ 0 ∧ sfd.name.headD 0 = 0) := fun both => both.1 free
    rw [if_pos free, if_pos free, if_neg named]
    split_ifs with head
    · rw [Prog.wp_andThen_iff]
      refine wp_setbadness ?_
      intro t count
      refine ⟨?_, count⟩
      rw [removeEntry, ← free]
    · exact ⟨(removeEntry_of_free free (not_not.1 head)).symm, rfl⟩
  · rw [if_neg free, if_neg free, Prog.wp_andThen_iff]
    -- what is done with the name once there is one
    have finish (name : List UInt8) {n : Nat} (nameless : Bool) {t : Check} (count : t.uniquecounter = n) :
        Prog.wp (do
          let terminated := checknullstring name
          Prog.when terminated.2 (setbadness exitRecov)
          let valid := checkbadstring terminated.1
          Prog.when valid.2 (setbadness exitRecov)
          pure (({ ino := sfd.ino, name := valid.1 } : SfsDir), nameless || terminated.2 || valid.2))
        (fun r t => r.1 = ⟨sfd.ino, (checkbadstring (checknullstring name).1).1⟩ ∧ t.uniquecounter = n) E t := by
      dsimp only
      rw [Prog.wp_andThen_iff]
      refine wp_when_setbadness ?_
      intro t₁ count₁
      rw [Prog.wp_andThen_iff]
      refine wp_when_setbadness ?_
      intro t₂ count₂
      exact ⟨rfl, count₂.trans (count₁.trans count)⟩
    rw [nameEntry]
    by_cases head : sfd.name.headD 0 = 0
    · rw [if_pos head, if_pos head, if_pos ⟨free, head⟩, Prog.wp_andThen_iff]
      refine wp_fsckName ?_
      intro t₁ count₁
      rw [Prog.wp_andThen_iff]
      refine wp_setbadness ?_
      intro t₂ count₂
      exact finish _ true (count₂.trans count₁)
    · have named : ¬(sfd.ino ≠ 0 ∧ sfd.name.headD 0 = 0) := fun both => head both.2
      rw [if_neg head, if_neg head, if_neg named]
      exact finish _ false rfl

/-- The entries are checked one by one. -/
lemma wp_checkDirEntries (d : List SfsDir) {E : Nat → Check → Prop} :
    Prog.wp (checkDirEntries d) (fun r t => r.1 = (tidy d s.uniquecounter).1 ∧
      t.uniquecounter = (tidy d s.uniquecounter).2) E s := by
  induction d generalizing s with
  | nil => exact ⟨rfl, rfl⟩
  | cons sfd d ih =>
    rw [checkDirEntries, Prog.wp_andThen_iff]
    refine (wp_checkDirEntry sfd).mono ?_ (fun _ _ e => e)
    rintro ⟨sfd₁, changed⟩ t ⟨rfl, count⟩
    rw [Prog.wp_andThen_iff]
    refine ih.mono ?_ (fun _ _ e => e)
    rintro ⟨d₁, dchanged⟩ t' ⟨rfl, count'⟩
    rw [count] at count' ⊢
    exact ⟨rfl, count'⟩

/-- The characters of a string in one byte each. -/
lemma map_bytes {l : List Char} (small : ∀ ch ∈ l, ch.toNat < 256) :
    (l.map fun ch => UInt8.ofNat ch.toNat).map (fun x => Char.ofNat x.toNat) = l := by
  induction l with
  | nil => rfl
  | cons ch l ih =>
    obtain ⟨first, rest⟩ := List.forall_mem_cons.1 small
    rw [List.map_cons, List.map_cons, ih rest, UInt8.toNat_ofNat', Nat.mod_eq_of_lt first, Char.ofNat_toNat]

/-- The characters of a name that is made up. -/
lemma fsckString_chars (ino c : Nat) : (fsckString ino c).map (fun x => Char.ofNat x.toNat) =
    "FSCK.".toList ++ Nat.toDigits 10 ino ++ ['.'] ++ Nat.toDigits 10 c := by
  have digits {n : Nat} {ch : Char} (mem : ch ∈ Nat.toDigits 10 n) : ch.toNat < 256 := by
    have digit := Nat.isDigit_of_mem_toDigits (by decide) (by decide) mem
    rw [Char.isDigit, Bool.and_eq_true, decide_eq_true_eq, decide_eq_true_eq] at digit
    have le : ch.toNat ≤ 57 := UInt32.le_iff_toNat_le.1 digit.2
    omega
  have letters : ∀ ch ∈ ['F', 'S', 'C', 'K', '.'], ch.toNat < 256 := by
    simp only [List.forall_mem_cons]
    exact ⟨by decide, by decide, by decide, by decide, by decide, List.forall_mem_nil _⟩
  unfold fsckString
  refine map_bytes ?_
  intro ch mem
  rcases List.mem_append.1 mem with mem | mem
  · rcases List.mem_append.1 mem with mem | mem
    · rcases List.mem_append.1 mem with mem | mem
      · exact letters ch mem
      · exact digits mem
    · rw [List.mem_singleton.1 mem]
      decide
  · exact digits mem

/-- The counter can be read off a name that has been made up: it is what comes after the last `'.'`. -/
lemma fsckString_counter {ino ino' c' : Nat} (eq : fsckString ino c = fsckString ino' c') : c = c' := by
  have last {ino c : Nat} : ((fsckString ino c).map fun x => Char.ofNat x.toNat).reverse.takeWhile Char.isDigit =
      (Nat.toDigits 10 c).reverse := by
    have digits : ∀ ch ∈ (Nat.toDigits 10 c).reverse, ch.isDigit = true := by
      intro ch mem
      exact Nat.isDigit_of_mem_toDigits (by decide) (by decide) (List.mem_reverse.1 mem)
    rw [fsckString_chars, List.reverse_append, List.takeWhile_append_of_pos digits, List.reverse_append]
    exact List.append_nil _
  have same : Nat.toDigits 10 c = Nat.toDigits 10 c' := by
    rw [← List.reverse_inj, ← last, eq, last]
  have value : Nat.ofDigitChars 10 (Nat.toDigits 10 c) 0 = Nat.ofDigitChars 10 (Nat.toDigits 10 c') 0 := by rw [same]
  rwa [Nat.ofDigitChars_ten_toDigits, Nat.ofDigitChars_ten_toDigits] at value

/-- A name that is made up is not empty. -/
lemma fsckString_ne_nil (ino c : Nat) : fsckString ino c ≠ [] := by
  intro no
  have first := (List.append_eq_nil_iff.1 (List.map_eq_nil_iff.1 no)).1
  exact List.cons_ne_nil _ _ (List.append_eq_nil_iff.1 first).2

/-- The entries that the loop over the neighbours renames, in its order: those that have the name of the next entry but
another inode. -/
def renamed (d : List SfsDir) : List Nat → List Nat
  | a :: b :: sortvector =>
    let d1 := entryAt d a
    let d2 := entryAt d b
    if d1.ino ≠ 0 ∧ strcmp d1.name d2.name = 0 ∧ d1.ino ≠ d2.ino then a :: renamed d (b :: sortvector)
    else renamed d (b :: sortvector)
  | _ => []

/-- An entry in use has the name `str`. -/
def Uses (d : List SfsDir) (str : List UInt8) : Prop := ∃ i, (entryAt d i).ino ≠ 0 ∧ cstring (entryAt d i).name = str

/-- A name is in use if an entry of the list has it. -/
lemma uses_iff : Uses d str ↔ ∃ sfd ∈ d, sfd.ino ≠ 0 ∧ cstring sfd.name = str := by
  constructor
  · rintro ⟨i, used, name⟩
    exact ⟨_, entryAt_mem used, used, name⟩
  · rintro ⟨sfd, mem, used, name⟩
    obtain ⟨i, lt, rfl⟩ := List.getElem_of_mem mem
    rw [← entryAt_of_lt lt] at used name
    exact ⟨i, used, name⟩

/-- No name is in use that the loop makes up for one of the entries that it renames: it takes the values of the counter
from `c` on. -/
def Unused (d : List SfsDir) (c : Nat) (places : List Nat) : Prop :=
  ∀ k a, places[k]? = some a → ¬Uses d (fsckString (entryAt d a).ino (wadd 32 c k))

/-- The places that get other names are among those that are passed. -/
lemma renamed_sublist (d : List SfsDir) (v : List Nat) : (renamed d v).Sublist v := by
  induction v with
  | nil => exact .refl _
  | cons a v ih =>
    cases v with
    | nil => exact List.nil_sublist _
    | cons b v =>
      rw [renamed]
      split_ifs
      · exact ih.cons_cons a
      · exact ih.cons a

/-- Which entries are renamed does not depend on an entry that has been left behind. -/
lemma renamed_set (out : a ∉ v) (e : SfsDir) : renamed (d.set a e) v = renamed d v := by
  induction v with
  | nil => rfl
  | cons x v ih =>
    cases v with
    | nil => rfl
    | cons y v =>
      obtain ⟨ne, out⟩ := List.ne_and_not_mem_of_not_mem_cons out
      have ne' := (List.ne_and_not_mem_of_not_mem_cons out).1
      rw [renamed, renamed, entryAt_set_ne ne, entryAt_set_ne ne', ih out]

/-- An entry with the name of an entry that has a name is in use. -/
lemma used_of_same (named : ∀ sfd ∈ d, Named sfd) (same : cstring (entryAt d a).name = cstring (entryAt d b).name)
    (name : cstring (entryAt d a).name = str) (ne : str ≠ []) : (entryAt d b).ino ≠ 0 := by
  intro free
  have none := (named_entryAt named b).free free
  rw [← same, name] at none
  exact ne none

/-- The names in use when an entry changes whose name another entry has as well. -/
lemma uses_set (lt : a < d.length) (named : ∀ sfd ∈ d, Named sfd) (ne : b ≠ a)
    (same : cstring (entryAt d a).name = cstring (entryAt d b).name) (e : SfsDir) (str_ne : str ≠ []) :
    Uses (d.set a e) str ↔ Uses d str ∨ e.ino ≠ 0 ∧ cstring e.name = str := by
  constructor
  · rintro ⟨i, used, name⟩
    by_cases eq : a = i
    · subst eq
      rw [entryAt_set_self lt] at used name
      exact .inr ⟨used, name⟩
    · rw [entryAt_set_ne eq] at used name
      exact .inl ⟨i, used, name⟩
  · rintro (⟨i, used, name⟩ | ⟨used, name⟩)
    · by_cases eq : a = i
      · subst eq
        refine ⟨b, ?_, ?_⟩
        · rw [entryAt_set_ne (Ne.symm ne)]
          exact used_of_same named same name str_ne
        · rw [entryAt_set_ne (Ne.symm ne), ← same, name]
      · refine ⟨i, ?_, ?_⟩
        · rwa [entryAt_set_ne eq]
        · rwa [entryAt_set_ne eq]
    · refine ⟨a, ?_, ?_⟩
      · rwa [entryAt_set_self lt]
      · rwa [entryAt_set_self lt]

/-- Adding nothing to the counter. -/
lemma wadd_zero (lt : c < 2 ^ 32) : wadd 32 c 0 = c := Nat.mod_eq_of_lt lt

/-- Counting one by one. -/
lemma wadd_succ (c k : Nat) : wadd 32 (wadd 32 c 1) k = wadd 32 c (k + 1) := by
  rw [wadd, wadd, wadd, Nat.mod_add_mod, Nat.add_assoc, Nat.add_comm 1 k]

/-- A later value of the counter is another one. -/
lemma wadd_ne {k : Nat} (lt : c < 2 ^ 32) (few : k + 1 < 2 ^ 32) : c ≠ wadd 32 c (k + 1) := by
  rw [wadd]
  have lt' := lt
  omega

/-- The first name that is made up, and the others. -/
lemma unused_cons {places : List Nat} (lt : c < 2 ^ 32) : Unused d c (a :: places) ↔
    ¬Uses d (fsckString (entryAt d a).ino c) ∧ Unused d (wadd 32 c 1) places := by
  constructor
  · intro unused
    refine ⟨?_, ?_⟩
    · have first := unused 0 a rfl
      rwa [wadd_zero lt] at first
    · intro k x here
      rw [wadd_succ]
      exact unused (k + 1) x here
  · rintro ⟨first, rest⟩ k x here
    cases k with
    | zero =>
      cases here
      rwa [wadd_zero lt]
    | succ k =>
      rw [← wadd_succ]
      exact rest k x here

/-- The names that are still to be made up are unused or not, whatever happens to an entry with the name of another. -/
lemma unused_set {places : List Nat} (lt : a < d.length) (named : ∀ sfd ∈ d, Named sfd) (ne : b ≠ a)
    (same : cstring (entryAt d a).name = cstring (entryAt d b).name) {e : SfsDir} (out : a ∉ places)
    (new : ∀ k x, places[k]? = some x → e.ino ≠ 0 → cstring e.name ≠ fsckString (entryAt d x).ino (wadd 32 c k)) :
    Unused (d.set a e) c places ↔ Unused d c places := by
  refine forall_congr' fun k => forall_congr' fun x => forall_congr' fun here => not_congr ?_
  have other : a ≠ x := by
    rintro rfl
    exact out (List.mem_of_getElem? here)
  rw [entryAt_set_ne other, uses_set lt named ne same e (fsckString_ne_nil _ _)]
  refine or_iff_left ?_
  rintro ⟨used, name⟩
  exact new k x here used name

/-- By induction on the entries that are left. An entry that gets a name of its own has another number in it than the
names to come. -/
lemma freshNames_iff (named : ∀ sfd ∈ d, Named sfd) (lt : c < 2 ^ 32) (nodup : v.Nodup) (few : v.length ≤ 2 ^ 32) :
    FreshNames v d c ↔ Unused d c (renamed d v) := by
  have none {d : List SfsDir} {c : Nat} : Unused d c [] := by
    intro k a no
    cases no
  induction v generalizing d c with
  | nil => exact iff_of_true trivial none
  | cons a v ih =>
    cases v with
    | nil => exact iff_of_true trivial none
    | cons b v =>
      obtain ⟨out, nodup⟩ := List.nodup_cons.1 nodup
      have ne : b ≠ a := fun eq => out (eq ▸ List.mem_cons_self)
      have few' : (b :: v).length ≤ 2 ^ 32 := (Nat.le_succ _).trans few
      rw [renamed]
      by_cases free : (entryAt d a).ino = 0
      · rw [freshNames_keep (.inl free), if_neg fun both => both.1 free]
        exact ih named lt nodup few'
      · by_cases same : strcmp (entryAt d a).name (entryAt d b).name = 0
        · have same' := strcmp_eq_zero.1 same
          have out' : a ∉ renamed d (b :: v) := fun mem => out ((renamed_sublist _ _).subset mem)
          by_cases merge : (entryAt d a).ino = (entryAt d b).ino
          · rw [freshNames_merge free same merge, if_neg fun both => both.2.2 merge]
            have named' : ∀ sfd ∈ d.set a (removeEntry (entryAt d a)), Named sfd :=
              named_set named (named_removeEntry (named_entryAt named a).toFits)
            refine (ih named' lt nodup few').trans ?_
            rw [renamed_set out]
            refine unused_set (lt_of_used free) named ne same' out' ?_
            intro _ _ _ used
            exact absurd rfl used
          · rw [freshNames_rename free same merge, if_pos ⟨free, same, merge⟩, unused_cons lt]
            have fits := (named_entryAt named a).toFits
            have short := shortName_fsckString fits.ino lt
            have named' : ∀ sfd ∈ d.set a ⟨(entryAt d a).ino, strcpy (entryAt d a).name _⟩, Named sfd :=
              named_set named (named_strcpy fits short fits.ino free)
            refine and_congr ?_ ?_
            · rw [uses_iff]
              simp only [not_exists, not_and]
            · refine (ih named' (wadd_lt _ _ _) nodup few').trans ?_
              rw [renamed_set out]
              refine unused_set (lt_of_used free) named ne same' out' ?_
              intro k x here _ eq
              rw [strcpy, cstring_append_zero short.zero, wadd_succ] at eq
              have below := (List.getElem?_eq_some_iff.1 here).1
              have most := (renamed_sublist d (b :: v)).length_le
              rw [List.length_cons] at few
              exact wadd_ne lt (by omega) (fsckString_counter eq)
        · rw [freshNames_keep (.inr same), if_neg fun both => same both.2.1]
          exact ih named lt nodup few'

/-- What the loop does to entries from `d` to `r`, where `v` are the entries that are left: the others stay as they
are, and a name that one of those that are left has is still that of one of them. -/
structure Passed (v : List Nat) (d r : List SfsDir) : Prop where
  frame : ∀ i, i ∉ v → entryAt r i = entryAt d i
  keeps : ∀ str ≠ [], ∀ i ∈ v, (entryAt d i).ino ≠ 0 → cstring (entryAt d i).name = str →
    ∃ j ∈ v, (entryAt r j).ino ≠ 0 ∧ cstring (entryAt r j).name = str

/-- Nothing has changed before the loop. -/
lemma Passed.refl (v : List Nat) (d : List SfsDir) : Passed v d d :=
  ⟨fun _ _ => rfl, fun _ _ i mem used name => ⟨i, mem, used, name⟩⟩

/-- The entry in front is left as it is. -/
lemma Passed.skip {r : List SfsDir} (h : Passed v d r) (out : a ∉ v) : Passed (a :: v) d r := by
  refine ⟨?_, ?_⟩
  · intro i out
    exact h.frame i (List.not_mem_of_not_mem_cons out)
  · intro str ne i mem used name
    cases List.mem_cons.1 mem with
    | inl eq =>
      subst eq
      refine ⟨i, mem, ?_, ?_⟩
      · rwa [h.frame i out]
      · rwa [h.frame i out]
    | inr mem =>
      obtain ⟨j, mem, used, name⟩ := h.keeps str ne i mem used name
      exact ⟨j, List.mem_cons_of_mem a mem, used, name⟩

/-- The entry in front changes; the next one has its name. -/
lemma Passed.change {r : List SfsDir} {e : SfsDir} (named : ∀ sfd ∈ d, Named sfd) (out : a ∉ b :: v)
    (same : cstring (entryAt d a).name = cstring (entryAt d b).name) (h : Passed (b :: v) (d.set a e) r) :
    Passed (a :: b :: v) d r := by
  have other {i : Nat} (mem : i ∈ b :: v) : entryAt (d.set a e) i = entryAt d i := by
    refine entryAt_set_ne ?_ e
    rintro rfl
    exact out mem
  refine ⟨?_, ?_⟩
  · intro i out
    obtain ⟨ne, out⟩ := List.ne_and_not_mem_of_not_mem_cons out
    rw [h.frame i out, entryAt_set_ne ne.symm]
  · intro str ne i mem used name
    -- an entry that is left has the name
    have left : ∃ i ∈ b :: v, (entryAt d i).ino ≠ 0 ∧ cstring (entryAt d i).name = str := by
      cases List.mem_cons.1 mem with
      | inl eq =>
        subst eq
        exact ⟨b, List.mem_cons_self, used_of_same named same name ne, same.symm.trans name⟩
      | inr mem => exact ⟨i, mem, used, name⟩
    obtain ⟨i, mem, used, name⟩ := left
    rw [← other mem] at used name
    obtain ⟨j, mem, used, name⟩ := h.keeps str ne i mem used name
    exact ⟨j, List.mem_cons_of_mem a mem, used, name⟩

/-- The loop ends, and a name in use stays in use. -/
lemma wp_checkDuplicates (named : ∀ sfd ∈ d, Named sfd) (counter : s.uniquecounter < 2 ^ 32) (nodup : v.Nodup)
    {E : Nat → Check → Prop} :
    Prog.wp (checkDuplicates v d) (fun r _ => Passed v d r.1) E s := by
  induction v generalizing d s with
  | nil => exact Passed.refl _ _
  | cons a v ih =>
    cases v with
    | nil => exact Passed.refl _ _
    | cons b v =>
      obtain ⟨out, nodup⟩ := List.nodup_cons.1 nodup
      have differ : a ≠ b := fun eq => out (eq ▸ List.mem_cons_self)
      rw [checkDuplicates, Prog.wp_andThen_iff]
      refine Prog.wp.require differ ?_
      split_ifs with free same merge
      · exact (ih named counter nodup).mono (fun _ _ h => h.skip out) (fun _ _ e => e)
      · have same' := strcmp_eq_zero.1 same
        rw [Prog.wp_andThen_iff]
        refine wp_setbadness ?_
        intro t count
        rw [Prog.wp_andThen_iff]
        refine (ih (named_set named (named_removeEntry (named_entryAt named a).toFits)) (count ▸ counter) nodup).mono
          ?_ (fun _ _ e => e)
        exact fun _ _ h => h.change named out same'
      · have same' := strcmp_eq_zero.1 same
        have fits := (named_entryAt named a).toFits
        have short := shortName_fsckString fits.ino counter
        rw [Prog.wp_andThen_iff]
        refine wp_fsckName ?_
        intro t count
        rw [Prog.wp_andThen_iff]
        refine wp_setbadness ?_
        intro t' count'
        have counter' : t'.uniquecounter < 2 ^ 32 := by
          rw [count', count]
          exact wadd_lt _ _ _
        rw [Prog.wp_andThen_iff]
        refine (ih (named_set named (named_strcpy fits short fits.ino free)) counter' nodup).mono ?_ (fun _ _ e => e)
        exact fun _ _ h => h.change named out same'
      · exact (ih named counter nodup).mono (fun _ _ h => h.skip out) (fun _ _ e => e)

/-- A name that is made up and in use already is in use twice in the end: the entry that has it keeps it, or another one
does that is still left. -/
lemma freshNames_of_distinct {r : List SfsDir × Bool} (run : checkDuplicates v d s = .ok (.ok r, s'))
    (named : ∀ sfd ∈ d, Named sfd) (counter : s.uniquecounter < 2 ^ 32) (nodup : v.Nodup)
    (distinct : Distinct (entryAt r.1)) : FreshNames v d s.uniquecounter := by
  induction v generalizing d s r with
  | nil => trivial
  | cons a v ih =>
    cases v with
    | nil => trivial
    | cons b v =>
      obtain ⟨out, nodup⟩ := List.nodup_cons.1 nodup
      have ne : b ≠ a := fun eq => out (eq ▸ List.mem_cons_self)
      rcases checkDuplicates_cons run with ⟨keep, run⟩ | ⟨used, same, merge, s₁, r₁, count, rest, rfl⟩ |
        ⟨used, same, other, s₁, r₁, count, rest, rfl⟩
      · exact (freshNames_keep keep).2 (ih run named counter nodup distinct)
      · have fresh := ih rest (named_set named (named_removeEntry (named_entryAt named a).toFits)) (count ▸ counter)
          nodup distinct
        rw [count] at fresh
        exact (freshNames_merge used same merge).2 fresh
      · have same' := strcmp_eq_zero.1 same
        have fits := (named_entryAt named a).toFits
        have short := shortName_fsckString fits.ino counter
        have counter' : s₁.uniquecounter < 2 ^ 32 := count ▸ wadd_lt _ _ _
        have named' : ∀ sfd ∈ d.set a ⟨(entryAt d a).ino, strcpy (entryAt d a).name _⟩, Named sfd :=
          named_set named (named_strcpy fits short fits.ino used)
        refine (freshNames_rename used same other).2 ⟨?_, ?_⟩
        · by_contra clash
          push Not at clash
          obtain ⟨i, taken, name⟩ := uses_iff.2 clash
          -- an entry other than `a` has the name before the loop goes on
          have there : ∃ i, i ≠ a ∧ (entryAt d i).ino ≠ 0 ∧
              cstring (entryAt d i).name = fsckString (entryAt d a).ino s.uniquecounter := by
            by_cases eq : i = a
            · subst eq
              exact ⟨b, ne, used_of_same named same' name (fsckString_ne_nil _ _), same'.symm.trans name⟩
            · exact ⟨i, eq, taken, name⟩
          obtain ⟨i, apart, taken, name⟩ := there
          have passed := (wp_checkDuplicates (E := fun _ _ => True) named' counter' nodup).of_ok rest
          have self := passed.frame a out
          rw [entryAt_set_self (lt_of_used used)] at self
          have renamed : cstring (entryAt r₁.1 a).name = fsckString (entryAt d a).ino s.uniquecounter := by
            rw [self]
            exact cstring_append_zero short.zero _
          have used₁ : (entryAt r₁.1 a).ino ≠ 0 := by rwa [self]
          rw [← entryAt_set_ne (Ne.symm apart)] at taken name
          by_cases mem : i ∈ b :: v
          · obtain ⟨j, mem, taken, name⟩ := passed.keeps _ (fsckString_ne_nil _ _) i mem taken name
            rw [distinct j a taken used₁ (name.trans renamed.symm)] at mem
            exact out mem
          · rw [← passed.frame i mem] at taken name
            exact apart (distinct i a taken used₁ (name.trans renamed.symm))
        · have fresh := ih rest named' counter' nodup distinct
          rwa [count] at fresh

/-- The kernel reads the entries `d` from the directory `sv`. -/
structure Lists (fs : SfsFs) (sv : Nat) (d : List SfsDir) : Prop where
  nentries : sfsDirNentries sv fs = .ok (.ok d.length, fs)
  readdir : ∀ i < d.length, sfsReaddir sv i fs = .ok (.ok (entryAt d i), fs)

section

variable {fs : SfsFs} {sv : Nat} {N : Nat → Prop}

/-- What the kernel reads from its root directory. -/
lemma lists_root (h : Core fs N) (root : RootDir fs) (mem : sv ∈ fs.vnodes) (ino : (fs.vnode sv).ino = 1) :
    Lists fs sv ((List.range ((fs.file 1).size / 64)).map (fs.file 1).entry) := by
  refine ⟨?_, ?_⟩
  · rw [List.length_map, List.length_range]
    exact Prog.run_of_wp (h.wp_sfsDirNentries root mem ino ⟨rfl, rfl⟩)
  · intro i lt
    have same := entryAt_of_lt lt
    rw [List.length_map, List.length_range] at lt
    rw [same, List.getElem_map, List.getElem_range]
    exact Prog.run_of_wp (h.wp_sfsReaddir mem ino root.sized lt ⟨rfl, rfl⟩)

/-- The kernel takes the name of an entry in order as it is. -/
lemma cname_of_named (h : Named sfd) : sfd.cname = cstring sfd.name := by
  have short : (cstring sfd.name).length ≤ 59 := by
    have le : (cstring sfd.name).length ≤ sfd.name.length := (List.takeWhile_sublist _).length_le
    have length := h.length
    by_contra long
    have full : (cstring sfd.name).length = sfd.name.length := by omega
    have all : cstring sfd.name = sfd.name := (List.takeWhile_sublist _).eq_of_length full
    have zero := h.terminated
    rw [← all] at zero
    exact absurd (List.mem_takeWhile_imp zero) (by decide)
  rw [SfsDir.cname, cstring, ← List.take_takeWhile]
  exact List.take_of_length_le short

/-- Names that are distinct are distinct keys. -/
lemma slots_distinct (named : ∀ sfd ∈ d, Named sfd) (distinct : Distinct (entryAt d)) :
    Slots.Distinct fun i => (entryAt d i).slot := by
  have spec {i : Nat} {str : List UInt8} {v : Nat} (hold : (entryAt d i).slot = some (str, v)) :
      (entryAt d i).ino ≠ 0 ∧ cstring (entryAt d i).name = str := by
    rw [SfsDir.slot] at hold
    split_ifs at hold with used
    rw [← cname_of_named (named_entryAt named i)]
    exact ⟨used, congrArg Prod.fst (Option.some.inj hold)⟩
  intro i j str v w hi hj
  obtain ⟨used, name⟩ := spec hi
  obtain ⟨used', name'⟩ := spec hj
  exact distinct i j used used' (name.trans name'.symm)

/-- The search of a directory in which the names are different. -/
lemma sfsDirFindname_of_distinct (h : Lists fs sv d) (named : ∀ sfd ∈ d, Named sfd) (distinct : Distinct (entryAt d))
    (name : CStr) : ∃ r, sfsDirFindname sv name fs = .ok (.ok r, fs) := by
  have loop (n k : Nat) (stop : k + n = d.length) {r : Search}
      (seen : r.Seen (fun i => (entryAt d i).slot) name.val k) :
      Prog.wp (sfsDirFindnameLoop sv name n k r) (fun _ fs' => fs' = fs) (fun _ _ => False) fs := by
    induction n generalizing k r with
    | zero => exact rfl
    | succ n ih =>
      rw [sfsDirFindnameLoop, Prog.wp_andThen_iff]
      refine Prog.wp_of_run (h.readdir k (by omega)) ?_
      rw [Prog.wp_andThen_iff]
      refine (wp_searchEntry rfl (slots_distinct named distinct) seen).mono ?_ (fun _ _ e => e)
      rintro r' _ ⟨rfl, seen'⟩
      exact ih (k + 1) (by omega) seen'
  have start : Search.Seen (fun i => (entryAt d i).slot) name.val 0 ⟨none, none⟩ := by
    refine ⟨?_, ?_, ?_⟩
    · intro v j no
      cases no
    · intro _ j lt
      omega
    · intro j no
      cases no
  have all : Prog.wp (sfsDirFindname sv name) (fun _ fs' => fs' = fs) (fun _ _ => False) fs := by
    rw [sfsDirFindname, Prog.wp_andThen_iff]
    exact Prog.wp_of_run h.nentries (loop _ 0 (Nat.zero_add _) start)
  obtain ⟨r, fs', run, ok, err⟩ := Prog.wp_iff.1 all
  cases r with
  | error e => exact (err e rfl).elim
  | ok r => exact ⟨r, (ok r rfl) ▸ run⟩

end

/-- The names are different, so that the kernel does not find one twice. -/
def NamesUnique (d : List SfsDir) : Prop :=
  Distinct (entryAt d) ∧ ∀ fs sv, Lists fs sv d → ∀ name, ∃ r, sfsDirFindname sv name fs = .ok (.ok r, fs)

/-- None of the names that get made up for the entries of `d` is in use among them, where `c` is the counter. -/
def NoClash (d : List SfsDir) (c : Nat) : Prop :=
  Unused (tidy d c).1 (tidy d c).2 (renamed (tidy d c).1 (sortdir (tidy d c).1 d.length))

/-- What the loop over the neighbours gets from the entry check. -/
lemma noClash_iff {r : List SfsDir × Bool} (run : checkDirEntries d s = .ok (.ok r, s')) (fits : ∀ sfd ∈ d, Fits sfd)
    (small : d.length * 64 < 2 ^ 32) (counter : s.uniquecounter < 2 ^ 32) : s'.uniquecounter < 2 ^ 32 ∧
      (NoClash d s.uniquecounter ↔ FreshNames (sortdir r.1 d.length) r.1 s'.uniquecounter) := by
  obtain ⟨tidied, count⟩ := (wp_checkDirEntries (E := fun _ _ => True) d).of_ok run
  obtain ⟨named, length, -⟩ := checkDirEntries_spec run fits counter
  have counter' : s'.uniquecounter < 2 ^ 32 := by
    rw [count]
    exact tidy_counter_lt counter d
  have sorting := sorting_sortdir r.1
  rw [length] at sorting
  have few : (sortdir r.1 d.length).length ≤ 2 ^ 32 := by
    rw [(sortdir_perm _ _).length_eq, List.length_range]
    omega
  refine ⟨counter', ?_⟩
  rw [NoClash, ← tidied, ← count, freshNames_iff named counter' sorting.nodup few]

/-- When the names in a directory are different in the end. -/
theorem dirnames_distinct_iff (fits : ∀ sfd ∈ d, Fits sfd) (small : d.length * 64 < 2 ^ 32)
    (counter : s.uniquecounter < 2 ^ 32) : ∃ r s₁ t s₂, checkDirEntries d s = .ok (.ok r, s₁) ∧
      checkDuplicates (sortdir r.1 d.length) r.1 s₁ = .ok (.ok t, s₂) ∧
      (NamesUnique t.1 ↔ NoClash d s.uniquecounter) := by
  obtain ⟨r, s₁, run₁, -, err₁⟩ := Prog.wp_iff.1 (wp_checkDirEntries (s := s) (E := fun _ _ => False) d)
  cases r with
  | error e => exact (err₁ e rfl).elim
  | ok r =>
    obtain ⟨named, length, -⟩ := checkDirEntries_spec run₁ fits counter
    obtain ⟨counter₁, clear⟩ := noClash_iff run₁ fits small counter
    have sorting := sorting_sortdir r.1
    rw [length] at sorting
    obtain ⟨t, s₂, run₂, -, err₂⟩ :=
      Prog.wp_iff.1 (wp_checkDuplicates (E := fun _ _ => False) named counter₁ sorting.nodup)
    cases t with
    | error e => exact (err₂ e rfl).elim
    | ok t =>
      refine ⟨r, s₁, t, s₂, run₁, run₂, ?_⟩
      rw [clear]
      constructor
      · rintro ⟨distinct, -⟩
        exact freshNames_of_distinct run₂ named counter₁ sorting.nodup distinct
      · intro fresh
        obtain ⟨named', -, distinct, -⟩ := checkDuplicates_spec run₂ named counter₁ sorting fresh
        exact ⟨distinct, fun fs sv lists name => sfsDirFindname_of_distinct lists named' distinct name⟩

/-- The variables of a call of `check_dir` when the entries have been read. -/
structure Dir.Read (maxdirentries : Nat) (dir : Dir) : Prop where
  few : dir.ndirentries ≤ maxdirentries
  small : maxdirentries * 64 < 2 ^ 32
  size : dir.sfi.size.toNat = 64 * dir.ndirentries
  length : dir.direntries.length = maxdirentries
  fits : ∀ sfd ∈ dir.direntries.take dir.ndirentries, Fits sfd
  rest : ∀ sfd ∈ dir.direntries.drop dir.ndirentries, sfd = freeEntry

/-- Free entries at the end make no difference. -/
lemma entryAt_append {rest : List SfsDir} (free : ∀ sfd ∈ rest, sfd = freeEntry) (i : Nat) :
    entryAt (d ++ rest) i = entryAt d i := by
  by_cases lt : i < d.length
  · rw [entryAt, entryAt, List.getD_append _ _ _ _ lt]
  · have le := Nat.le_of_not_lt lt
    rw [entryAt_of_le le, entryAt, List.getD_append_right _ _ _ _ le]
    by_cases more : i - d.length < rest.length
    · rw [List.getD_eq_getElem _ _ more]
      exact free _ (List.getElem_mem more)
    · exact List.getD_eq_default _ _ (Nat.le_of_not_lt more)

/-- All that `check_dir` does with the names of a directory: they are in order in the end, unless one that is made up is
in use. -/
theorem checkNames_fine {ino parentino maxdirentries : Nat} {dir r : Dir}
    (run : checkNames ino parentino maxdirentries dir s = .ok (.ok r, s')) (read : dir.Read maxdirentries)
    (counter : s.uniquecounter < 2 ^ 32)
    (clear : NoClash (dir.direntries.take dir.ndirentries) s.uniquecounter) (hi : Ino ino) (hp : Ino parentino) :
    r.Fine ino parentino maxdirentries := by
  obtain ⟨r₁, s₁, run₁, run⟩ := Prog.ok_of_andThen run
  obtain ⟨r₂, s₂, run₂, run⟩ := Prog.ok_of_andThen run
  obtain ⟨r₃, s₃, run₃, run⟩ := Prog.ok_of_andThen run
  obtain ⟨dir₁, s₄, add₁, add₂⟩ := Prog.ok_of_andThen run
  have count : (dir.direntries.take dir.ndirentries).length = dir.ndirentries := by
    rw [List.length_take, read.length, Nat.min_eq_left read.few]
  have small : (dir.direntries.take dir.ndirentries).length * 64 < 2 ^ 32 := by
    have small := read.small
    have few := read.few
    omega
  obtain ⟨counter₁, fresh⟩ := noClash_iff run₁ read.fits small counter
  obtain ⟨named₁, length₁, -⟩ := checkDirEntries_spec run₁ read.fits counter
  have sorting := sorting_sortdir r₁.1
  rw [length₁, count] at sorting
  rw [count] at fresh
  obtain ⟨named₂, length₂, distinct, -⟩ := checkDuplicates_spec run₂ named₁ counter₁ sorting (fresh.1 clear)
  have dotted := checkDots_spec run₃
  have length₃ : r₃.1.length = dir.ndirentries := by rw [dotted.fixed, List.length_map, length₂, length₁, count]
  have entries (i : Nat) : entryAt (r₃.1 ++ dir.direntries.drop dir.ndirentries) i =
      fixDot ino parentino (entryAt r₂.1 i) := by
    rw [entryAt_append read.rest, dotted.fixed, entryAt_map_fixDot]
  have missing {name : List UInt8} (ne : name ≠ []) (none : ∀ sfd ∈ r₂.1, cstring sfd.name ≠ name) (i : Nat) :
      cstring (entryAt (r₃.1 ++ dir.direntries.drop dir.ndirentries) i).name ≠ name := by
    rw [entries, name_fixDot]
    by_cases lt : i < r₂.1.length
    · rw [entryAt_of_lt lt]
      exact none _ (List.getElem_mem lt)
    · rw [entryAt_of_le (Nat.le_of_not_lt lt)]
      exact ne.symm
  have buffer := buffer_fixDot named₂ distinct hi hp
  rw [length₂, length₁, count, ← dotted.fixed] at buffer
  have fine : Dir.Fine ino parentino maxdirentries { dir with
      direntries := r₃.1 ++ dir.direntries.drop dir.ndirentries
      dchanged := r₁.2 || r₂.2 || r₃.2.2 } := by
    refine ⟨?_, read.few, read.small, read.size, ?_⟩
    · have few := read.few
      rw [List.length_append, length₃, List.length_drop, read.length]
      omega
    · have same : entryAt (r₃.1 ++ dir.direntries.drop dir.ndirentries) = entryAt r₃.1 := by
        funext i
        exact entryAt_append read.rest i
      dsimp only
      rwa [same]
  obtain ⟨fine₁, -, others⟩ := addDots_spec add₁ fine (fun unseen => missing (by decide) (dotted.dot unseen))
    shortName_dot (fun _ => rfl) (fun no => absurd no dot_ne_dotdot) hi
  have absent (unseen : r₃.2.1.dotdotseen = false) :=
    others dotdot dot_ne_dotdot.symm (missing (by decide) (dotted.dotdot unseen))
  exact (addDots_spec add₂ fine₁ absent shortName_dotdot (fun no => absurd no.symm dot_ne_dotdot) (fun _ => rfl) hp).1

/-- An entry as it is on a disk. -/
def entryNamed (ino : Nat) (str : List UInt8) : SfsDir := ⟨ino, strcpy freeEntry.name str⟩

/-- A directory with two names that are the same. -/
def twoNames : List SfsDir := [entryNamed 2 [97], entryNamed 3 [97]]

/-- A directory with two names that are the same, and one that has been made up before. -/
def threeNames : List SfsDir := [entryNamed 2 [97], entryNamed 3 [97], entryNamed 4 (fsckString 2 1)]

/-- The state when the checker starts on a disk of eight blocks. -/
def startState : Check := Check.start ⟨8, fun _ => Block.zeros⟩

/-- The first of two entries with the same name gets a name of its own. -/
theorem dirnames_distinct_two : ∃ r s₁ t s₂, checkDirEntries twoNames startState = .ok (.ok r, s₁) ∧
    checkDuplicates (sortdir r.1 2) r.1 s₁ = .ok (.ok t, s₂) ∧ NamesUnique t.1 := by
  have fits : ∀ sfd ∈ twoNames, Fits sfd := by
    intro sfd mem
    rw [twoNames, List.mem_cons, List.mem_singleton] at mem
    rcases mem with rfl | rfl
    · exact ⟨by decide, rfl⟩
    · exact ⟨by decide, rfl⟩
  obtain ⟨r, s₁, t, s₂, run₁, run₂, unique⟩ :=
    dirnames_distinct_iff (s := startState) fits (by decide) (by decide)
  refine ⟨r, s₁, t, s₂, run₁, run₂, unique.2 ?_⟩
  have places : renamed (tidy twoNames 1).1 (sortdir (tidy twoNames 1).1 2) = [0] := by decide
  have none : ¬∃ sfd ∈ (tidy twoNames 1).1, sfd.ino ≠ 0 ∧ cstring sfd.name = fsckString 2 1 := by decide
  show Unused (tidy twoNames 1).1 1 (renamed (tidy twoNames 1).1 (sortdir (tidy twoNames 1).1 2))
  rw [places, unused_cons (by decide), uses_iff]
  refine ⟨none, ?_⟩
  intro k a no
  cases no

/-- What becomes of them: the first entry gets the name of the last one. -/
def clashingNames : List SfsDir := [entryNamed 2 (fsckString 2 1), entryNamed 3 [97], entryNamed 4 (fsckString 2 1)]

/-- The kernel finds the name twice, and an assertion fails. -/
lemma kassert_clashingNames {fs : SfsFs} {sv : Nat} (h : Lists fs sv clashingNames) (zero : 0 ∉ fsckString 2 1) :
    sfsDirFindname sv ⟨fsckString 2 1, zero⟩ fs = .error (.kassert "found==0") := by
  rw [sfsDirFindname, Prog.andThen_of_run h.nentries]
  show sfsDirFindnameLoop sv _ 3 0 _ fs = _
  rw [sfsDirFindnameLoop, Prog.andThen_of_run (h.readdir 0 (by decide))]
  rw [Prog.andThen_of_run (t := fs) (a := ⟨some (2, 0), none⟩) rfl]
  rw [sfsDirFindnameLoop, Prog.andThen_of_run (h.readdir 1 (by decide))]
  rw [Prog.andThen_of_run (t := fs) (a := ⟨some (2, 0), none⟩) rfl]
  rw [sfsDirFindnameLoop, Prog.andThen_of_run (h.readdir 2 (by decide))]
  rfl

/-- The name that is made up is in use already, and the kernel finds it twice. -/
theorem dirnames_clash : ∃ s₁ t s₂, checkDirEntries threeNames startState = .ok (.ok (threeNames, false), s₁) ∧
    checkDuplicates (sortdir threeNames 3) threeNames s₁ = .ok (.ok t, s₂) ∧ t.1 = clashingNames ∧
    ¬ NamesUnique t.1 ∧
    ∀ fs sv, Lists fs sv t.1 → ∃ name, sfsDirFindname sv name fs = .error (.kassert "found==0") := by
  have sorted : sortdir threeNames 3 = [0, 1, 2] := by decide
  have run : ∃ s₂, checkDuplicates [0, 1, 2] threeNames startState = .ok (.ok (clashingNames, true), s₂) := ⟨_, rfl⟩
  obtain ⟨s₂, run⟩ := run
  rw [← sorted] at run
  refine ⟨startState, _, s₂, rfl, run, rfl, ?_, ?_⟩
  · rintro ⟨distinct, -⟩
    exact absurd (distinct 0 2 (by decide) (by decide) rfl) (by decide)
  · intro fs sv lists
    exact ⟨_, kassert_clashingNames lists (by decide)⟩

end PDS.Sfsck
