import Mathlib.Data.List.TakeWhile
import PDS.Cpp.FGrep
import PDS.Lib.Journal

/-!
# The search of one file

Port of `doSearch` in `Malnati/lab3/FileSearcher.cpp` and of `syncWriteLine` in `ResultFile.cpp`. A search reads its file
line by line, up to the first line with the text, and writes the name of the file to the result file, which is shared.
A step is one line, one Win32 call, or one character that is written: other threads can run in between.

`contents` is what the stream of a file delivers, or nothing where the stream cannot be opened; files do not change
during the search, and what is written arrives.
-/

namespace PDS.Cpp
open Journal

/-- C++ `TEXT_NOT_FOUND`. -/
def textNotFound : Nat := 0

/-- C++ `TEXT_FOUND`. -/
def textFound : Nat := 1

/-- `std::getline`: the next line and what follows it, or failure when nothing is left. -/
def getline (s : List Char) : Option (List Char × List Char) :=
  if s = [] then none else some (s.takeWhile (· ≠ '\n'), (s.dropWhile (· ≠ '\n')).drop 1)

/-- `line.find(text)`. -/
def findText (text line : List Char) : Option Nat :=
  (List.range (line.length + 1)).find? fun i => text.isPrefixOf (line.drop i)

/-- C++ `class ResultFile`: what has been written, and the thread that owns the mutex. -/
structure ResultFile where
  of : List Char
  mutex : Option Nat
deriving DecidableEq, Repr

namespace ResultFile

/-- The constructor of `Mutex`, as soon as `WaitForSingleObject` returns to the thread `t`. -/
def lock (rf : ResultFile) (t : Nat) : Option ResultFile :=
  if rf.mutex = none then some { rf with mutex := some t } else none

/-- The destructor of `Mutex`: `ReleaseMutex` fails for a thread that is not the owner. -/
def unlock (rf : ResultFile) (t : Nat) : Option ResultFile :=
  if rf.mutex = some t then some { rf with mutex := none } else none

/-- One character of `(*of) << s << endl`. -/
def put (rf : ResultFile) (c : Char) : ResultFile := { rf with of := rf.of ++ [c] }

end ResultFile

/-- Where a thread is in `doSearch`. -/
inductive Searcher where
  | opening
  /-- at `getline`, with what is left of the file -/
  | reading (rest : List Char)
  /-- in `syncWriteLine`, at the constructor of `Mutex` -/
  | locking
  /-- in `syncWriteLine`, with what is left of the line -/
  | writing (rest : List Char)
  | returned (r : Nat)
  /-- the destructor of `Mutex` has thrown an exception -/
  | terminated
deriving DecidableEq, Repr

/-- `doSearch` on the thread `t`. A thread that waits for the mutex has no step. -/
def doSearch (contents : List Char → Option (List Char)) (fileName text : List Char) (t : Nat) (rf : ResultFile) :
    Searcher → Option (Searcher × ResultFile)
  | .opening =>
    match contents fileName with
    | none => some (.returned textNotFound, rf)
    | some c => some (.reading c, rf)
  | .reading rest =>
    match getline rest with
    | none => some (.returned textNotFound, rf)
    | some (line, rest) => if (findText text line).isSome then some (.locking, rf) else some (.reading rest, rf)
  | .locking => (rf.lock t).map fun rf => (.writing (fileName ++ ['\n']), rf)
  | .writing (c :: rest) => some (.writing rest, rf.put c)
  | .writing [] =>
    match rf.unlock t with
    | none => some (.terminated, rf)
    | some rf => some (.returned textFound, rf)
  | .returned _ | .terminated => none

/-- What `find` finds is a part of the line. -/
lemma findText_isSome_iff {text line : List Char} : (findText text line).isSome ↔ text <:+: line := by
  rw [findText, List.find?_isSome]
  constructor
  · rintro ⟨i, -, here⟩
    have here := List.isPrefixOf_iff_prefix.1 here
    exact here.isInfix.trans (List.drop_suffix i line).isInfix
  · rintro ⟨a, b, rfl⟩
    refine ⟨a.length, List.mem_range.2 ?_, List.isPrefixOf_iff_prefix.2 ?_⟩
    · rw [List.length_append, List.length_append]
      omega
    · rw [List.append_assoc, List.drop_left]
      exact List.prefix_append text b

/-- A text without a separator is on one side of it. -/
lemma infix_split {α : Type*} {t l r : List α} {x : α} (no : x ∉ t) : t <:+: l ++ x :: r ↔ t <:+: l ∨ t <:+: r := by
  constructor
  · rintro ⟨a, b, eq⟩
    rw [List.append_assoc, List.append_eq_append_iff] at eq
    obtain ⟨a', rfl, eq⟩ | ⟨c, rfl, eq⟩ := eq
    · rw [List.append_eq_append_iff] at eq
      obtain ⟨b', rfl, -⟩ | ⟨c, rfl, eq⟩ := eq
      · exact .inl ⟨a, b', List.append_assoc ..⟩
      · cases c with
        | nil => exact .inl ⟨a, [], by rw [List.append_nil, List.append_nil]⟩
        | cons y c =>
          cases eq
          exact absurd (List.mem_append_right a' List.mem_cons_self) no
    · cases c with
      | nil =>
        cases t with
        | nil => exact .inl (List.nil_infix)
        | cons y t =>
          cases eq
          exact absurd List.mem_cons_self no
      | cons y c =>
        cases eq
        exact .inr ⟨c, b, List.append_assoc ..⟩
  · rintro (here | here)
    · exact here.trans (List.prefix_append l _).isInfix
    · exact here.trans ((List.suffix_cons x r).trans (List.suffix_append l _)).isInfix

/-- The text is in a line of what the stream delivers: a line has no `'\n'`, and there is no line in nothing. -/
def Contains (text c : List Char) : Prop := c ≠ [] ∧ '\n' ∉ text ∧ text <:+: c

/-- The file can be opened and has the text in one of its lines. -/
def Hits (contents : List Char → Option (List Char)) (text fileName : List Char) : Prop :=
  ∃ c, contents fileName = some c ∧ Contains text c

instance (text c : List Char) : Decidable (Contains text c) :=
  inferInstanceAs (Decidable (c ≠ [] ∧ '\n' ∉ text ∧ text <:+: c))

instance (contents : List Char → Option (List Char)) (text fileName : List Char) :
    Decidable (Hits contents text fileName) :=
  decidable_of_iff ((contents fileName).any fun c => Contains text c) (by simp [Hits, Option.any_eq_true])

section

variable {contents : List Char → Option (List Char)} {fileName text c line rest : List Char} {t : Nat}
  {rf rf' : ResultFile} {p p' : Searcher}

/-- The first line of what is left. -/
lemma getline_spec (next : getline c = some (line, rest)) :
    '\n' ∉ line ∧ c ≠ [] ∧ (c = line ++ '\n' :: rest ∨ c = line ∧ rest = []) := by
  rw [getline] at next
  split_ifs at next with nil
  cases next
  refine ⟨fun mem => ?_, nil, ?_⟩
  · have ne := List.mem_takeWhile_imp mem
    exact of_decide_eq_true ne rfl
  · have whole := List.takeWhile_append_dropWhile (p := (· ≠ '\n')) (l := c)
    cases drop : c.dropWhile (· ≠ '\n') with
    | nil =>
      rw [drop, List.append_nil] at whole
      exact .inr ⟨whole.symm, rfl⟩
    | cons d tail =>
      have stop := List.head_dropWhile_not (· ≠ '\n') (by rw [drop]; exact List.cons_ne_nil d tail)
      simp only [drop, List.head_cons, decide_eq_false_iff_not, not_not] at stop
      rw [drop, stop] at whole
      exact .inl whole.symm

/-- A line takes something from the file. -/
lemma length_getline (next : getline c = some (line, rest)) : rest.length < c.length := by
  obtain ⟨-, ne, rfl | ⟨rfl, rfl⟩⟩ := getline_spec next
  · rw [List.length_append, List.length_cons]
    omega
  · exact List.length_pos_iff.2 ne

/-- The text is in the first line, or in one of the others. -/
lemma contains_getline (next : getline c = some (line, rest)) :
    Contains text c ↔ text <:+: line ∨ Contains text rest := by
  obtain ⟨solid, ne, split⟩ := getline_spec next
  have inside (here : text <:+: line) : '\n' ∉ text := fun mem => solid (here.subset mem)
  obtain rfl | ⟨rfl, rfl⟩ := split
  · constructor
    · rintro ⟨-, no, here⟩
      cases (infix_split no).1 here with
      | inl here => exact .inl here
      | inr here =>
        by_cases nil : rest = []
        · rw [nil, List.infix_nil] at here
          rw [here]
          exact .inl List.nil_infix
        · exact .inr ⟨nil, no, here⟩
    · rintro (here | ⟨-, no, here⟩)
      · exact ⟨ne, inside here, (infix_split (inside here)).2 (.inl here)⟩
      · exact ⟨ne, no, (infix_split no).2 (.inr here)⟩
  · constructor
    · exact fun ⟨_, _, here⟩ => .inl here
    · rintro (here | ⟨nil, -, -⟩)
      · exact ⟨ne, inside here, here⟩
      · exact absurd rfl nil

/-- What a thread has found out is right. -/
def Searcher.Sound (contents : List Char → Option (List Char)) (fileName text : List Char) : Searcher → Prop
  | .opening => True
  | .reading rest => Hits contents text fileName ↔ Contains text rest
  | .locking | .writing _ => Hits contents text fileName
  | .returned r => r = textFound ∧ Hits contents text fileName ∨ r = textNotFound ∧ ¬ Hits contents text fileName
  | .terminated => False

/-- Where a thread is as a writer of the result file. -/
def Searcher.phase : Searcher → Phase Char
  | .writing rest => .writing rest
  | .returned r => if r = textFound then .after else .before
  | .opening | .reading _ | .locking | .terminated => .before

/-- The line of a file. -/
def resultLine (fileName : List Char) : List Char := fileName ++ ['\n']

/-- What a step can be. -/
inductive Searches (contents : List Char → Option (List Char)) (fileName text : List Char) (t : Nat) (rf : ResultFile) :
    Searcher → Searcher → ResultFile → Prop where
  | closed (none : contents fileName = none) : Searches contents fileName text t rf .opening (.returned textNotFound) rf
  | opened {c : List Char} (some : contents fileName = some c) :
    Searches contents fileName text t rf .opening (.reading c) rf
  | eof : Searches contents fileName text t rf (.reading []) (.returned textNotFound) rf
  | found {c line rest : List Char} (next : getline c = some (line, rest)) (here : text <:+: line) :
    Searches contents fileName text t rf (.reading c) .locking rf
  | read {c line rest : List Char} (next : getline c = some (line, rest)) (not : ¬ text <:+: line) :
    Searches contents fileName text t rf (.reading c) (.reading rest) rf
  | lock (free : rf.mutex = none) : Searches contents fileName text t rf .locking (.writing (resultLine fileName))
      { rf with mutex := some t }
  | put {c : Char} {rest : List Char} :
    Searches contents fileName text t rf (.writing (c :: rest)) (.writing rest) (rf.put c)
  | unlock (own : rf.mutex = some t) : Searches contents fileName text t rf (.writing []) (.returned textFound)
      { rf with mutex := none }
  | throw (not : rf.mutex ≠ some t) : Searches contents fileName text t rf (.writing []) .terminated rf

/-- Inversion for a step of a search. -/
lemma searches_of_doSearch (step : doSearch contents fileName text t rf p = some (p', rf')) :
    Searches contents fileName text t rf p p' rf' := by
  cases p with
  | opening =>
    rw [doSearch] at step
    cases file : contents fileName with
    | none =>
      rw [file] at step
      cases step
      exact .closed file
    | some c =>
      rw [file] at step
      cases step
      exact .opened file
  | reading c =>
    rw [doSearch] at step
    cases next : getline c with
    | none =>
      rw [next] at step
      rw [getline] at next
      split_ifs at next with nil
      cases step
      rw [nil]
      exact .eof
    | some first =>
      obtain ⟨line, rest⟩ := first
      rw [next] at step
      dsimp only at step
      split_ifs at step with here
      · cases step
        exact .found next (findText_isSome_iff.1 here)
      · cases step
        exact .read next (mt findText_isSome_iff.2 here)
  | locking =>
    rw [doSearch, ResultFile.lock] at step
    split_ifs at step with free
    · cases step
      exact .lock free
    · cases step
  | writing rest =>
    cases rest with
    | nil =>
      rw [doSearch, ResultFile.unlock] at step
      split_ifs at step with own
      · cases step
        exact .unlock own
      · cases step
        exact .throw own
    | cons c rest =>
      cases step
      exact .put
  | returned r => cases step
  | terminated => cases step

/-- What a thread has found out stays right. -/
lemma Searches.sound (step : Searches contents fileName text t rf p p' rf') (sound : p.Sound contents fileName text)
    (own : ∀ rest, p = .writing rest → rf.mutex = some t) : p'.Sound contents fileName text := by
  cases step with
  | closed none =>
    refine .inr ⟨rfl, ?_⟩
    rintro ⟨c, some, -⟩
    cases none.symm.trans some
  | @opened c some =>
    constructor
    · rintro ⟨c', some', here⟩
      cases some.symm.trans some'
      exact here
    · exact fun here => ⟨c, some, here⟩
  | eof => exact .inr ⟨rfl, fun hits => (sound.1 hits).1 rfl⟩
  | found next here => exact sound.2 ((contains_getline next).2 (.inl here))
  | read next not => exact sound.trans ((contains_getline next).trans (or_iff_right not))
  | lock => exact sound
  | put => exact sound
  | unlock => exact .inl ⟨rfl, sound⟩
  | throw not => exact absurd (own [] rfl) not

/-- What has been written is still lines, and a part of the line of the owner of the mutex. -/
lemma Searches.written {msg : Nat → List Char} {phase : Nat → Phase Char} {order : List Nat}
    (step : Searches contents fileName text t rf p p' rf') (w : Written msg phase rf.mutex order rf.of)
    (here : phase t = p.phase) (line : msg t = resultLine fileName) :
    ∃ order', Written msg (Function.update phase t p'.phase) rf'.mutex order' rf'.of := by
  have same (eq : p'.phase = p.phase) (file : rf' = rf) :
      ∃ order', Written msg (Function.update phase t p'.phase) rf'.mutex order' rf'.of := by
    rw [eq, ← here, Function.update_eq_self, file]
    exact ⟨order, w⟩
  cases step with
  | closed | opened | eof | found | read => exact same rfl rfl
  | lock free =>
    rw [free] at w
    have acquired := w.acquire here
    rw [line] at acquired
    exact ⟨order, acquired⟩
  | put => exact ⟨order, w.put here⟩
  | unlock => exact ⟨order ++ [t], w.release here⟩
  | throw not => exact absurd (w.holder t [] here) not

/-- The steps that a thread can still take, with the last one, which ends it; `file` is the length of what its stream
delivers. -/
def Searcher.left (fileName : List Char) (file : Nat) : Searcher → Nat
  | .opening => file + fileName.length + 7
  | .reading rest => rest.length + fileName.length + 6
  | .locking => fileName.length + 5
  | .writing rest => rest.length + 3
  | .returned _ | .terminated => 1

/-- The length of what the stream of a file delivers. -/
def fileLength (contents : List Char → Option (List Char)) (fileName : List Char) : Nat :=
  ((contents fileName).getD []).length

/-- Every step of a search brings it nearer to its end. -/
lemma Searches.left_lt (step : Searches contents fileName text t rf p p' rf') :
    p'.left fileName (fileLength contents fileName) < p.left fileName (fileLength contents fileName) := by
  cases step with
  | closed | eof | unlock | throw => simp only [Searcher.left]; omega
  | opened some =>
    rw [Searcher.left, Searcher.left, fileLength, some, Option.getD_some]
    omega
  | found => simp only [Searcher.left]; omega
  | read next =>
    have short := length_getline next
    simp only [Searcher.left]
    omega
  | lock =>
    simp only [Searcher.left, resultLine, List.length_append, List.length_singleton]
    omega
  | put => simp only [Searcher.left, List.length_cons]; omega

/-- A thread that has no step has returned, or it waits for a mutex that is owned. -/
lemma doSearch_progress (sound : p.Sound contents fileName text)
    (stuck : doSearch contents fileName text t rf p = none) :
    (∃ r, p = .returned r) ∨ p = .locking ∧ rf.mutex ≠ none := by
  cases p with
  | opening =>
    rw [doSearch] at stuck
    split at stuck
    · cases stuck
    · cases stuck
  | reading rest =>
    rw [doSearch] at stuck
    split at stuck
    · cases stuck
    · split_ifs at stuck
  | locking =>
    rw [doSearch, Option.map_eq_none_iff, ResultFile.lock] at stuck
    split_ifs at stuck with free
    exact .inr ⟨rfl, free⟩
  | writing rest =>
    cases rest with
    | nil =>
      rw [doSearch] at stuck
      split at stuck
      · cases stuck
      · cases stuck
    | cons c rest => cases stuck
  | returned r => exact .inl ⟨r, rfl⟩
  | terminated => exact sound.elim

end

end PDS.Cpp
