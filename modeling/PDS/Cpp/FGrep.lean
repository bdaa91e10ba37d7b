import Mathlib.Tactic
import PDS.Lib.Packed

/-!
# Searching the files of a directory

Port of `Malnati/lab3/FGrep.cpp` and `SearchPool.cpp`. `FGrep::execute` walks a directory tree and starts a thread for
every regular file; a pool keeps the handles of the threads, of which only so many run at a time. What the Win32 calls
do is in the parameters of the model: a directory is given by what `FindFirstFile` and `FindNextFile` list
(`Listing`), and `ready` is the index that `WaitForMultipleObjects` answers with.

A subdirectory is searched by the public `execute`, which starts again at level `0`, so that the pool is waited for at
the end of every directory. The wait fails when nothing has been started yet. `fgrep_complete_iff` says which trees are
searched.
-/

namespace PDS.Cpp

/-- Characters in a path, with the terminator (Win32 `MAX_PATH`). -/
def maxPath : Nat := 260

/-- Handles that can be waited for (Win32 `MAXIMUM_WAIT_OBJECTS`). -/
def maximumWaitObjects : Nat := 64

/-- Win32 `WAIT_FAILED`. -/
def waitFailed : Nat := 0xFFFFFFFF

/-- C++ `class SearchPool`. The first `size` slots of `handles` hold the numbers of the searches. -/
structure SearchPool where
  maxSize : Nat
  handles : List Nat
  /-- the searches that have been started, each with its file and text -/
  started : List (List Char × List Char)
  /-- the numbers of the searches that have been waited for -/
  finished : List Nat
deriving DecidableEq, Repr

/-- `SearchPool::SearchPool(int size, ResultFile*)`. -/
def SearchPool.new (maxSize : Nat) : SearchPool := ⟨maxSize, [], [], []⟩

/-- Win32 `WaitForMultipleObjects`, which does not take an empty list or one that is too long. -/
def waitForMultipleObjects (ready : List Nat → Nat) (handles : List Nat) : Nat :=
  if handles = [] ∨ maximumWaitObjects < handles.length then waitFailed else ready handles

/-- The part of `SearchPool::addSearch` that waits for one thread to finish, and deletes it. An exception leaves the pool
as the error says. -/
def SearchPool.waitForOne (ready : List Nat → Nat) (p : SearchPool) : Except SearchPool SearchPool :=
  let h := waitForMultipleObjects ready p.handles
  if p.handles.length ≤ h then .error p
  else .ok
    { p with
      -- `handles[h] = handles[--size]`
      handles := (p.handles.set h (p.handles.getLastD 0)).dropLast
      finished := p.handles.getD h 0 :: p.finished }

/-- `SearchPool::addSearch`. -/
def SearchPool.addSearch (ready : List Nat → Nat) (p : SearchPool) (fileName text : List Char) :
    Except SearchPool SearchPool := do
  let p ← if p.handles.length = p.maxSize then p.waitForOne ready else .ok p
  .ok { p with handles := p.handles ++ [p.started.length], started := p.started ++ [(fileName, text)] }

/-- `SearchPool::waitForSearchCompletion`. -/
def SearchPool.waitForSearchCompletion (ready : List Nat → Nat) (p : SearchPool) : Except SearchPool SearchPool :=
  let h := waitForMultipleObjects ready p.handles
  if p.handles.length ≤ h then .error p else .ok { p with finished := p.handles ++ p.finished }

/-- A directory, as `FindFirstFile` and `FindNextFile` list it. -/
inductive Listing where
  /-- `ERROR_NO_MORE_FILES` -/
  | done
  | file (cFileName : List Char) (next : Listing)
  | dir (cFileName : List Char) (sub next : Listing)

/-- The name is `"."` or `".."`. -/
abbrev IsDots (name : List Char) : Prop := name = ['.'] ∨ name = ['.', '.']

/-- `StringCchLength`, which gives `0` for strings that are too long. -/
def stringCchLength (s : List Char) : Nat := if s.length < maxPath then s.length else 0

/-- `StringCchCopy`, which truncates. -/
def stringCchCopy (s : List Char) : List Char := s.take (maxPath - 1)

/-- `StringCchCat`, which truncates. -/
def stringCchCat (s t : List Char) : List Char := (s ++ t).take (maxPath - 1)

/-- The path in `file`. -/
def filePath (dirName name : List Char) : List Char := stringCchCat (stringCchCat (stringCchCopy dirName) ['\\']) name

/-- How a call of `execute` ends. -/
inductive Outcome where
  | returned (r : Int) (p : SearchPool)
  | thrown (p : SearchPool)

/-- `FGrep::execute(dirName, text, level)` up to the loop, which is `body`. -/
def enter (dirName : List Char) (listing : Listing) (p : SearchPool) (body : Outcome) : Outcome :=
  if maxPath - 3 < stringCchLength dirName then .returned (-1) p
  else
    match listing with
    | .done => .returned (-1) p
    | _ => body

/-- The loop of `FGrep::execute(dirName, text, level)`, and what comes after it. -/
def findLoop (ready : List Nat → Nat) (text : List Char) (dirName : List Char) (level : Nat) :
    Listing → SearchPool → Outcome
  | .done, p =>
    if level = 0 then
      match p.waitForSearchCompletion ready with
      | .error p => .thrown p
      | .ok p => .returned 0 p
    else .returned 0 p
  | .file name next, p =>
    if IsDots name then findLoop ready text dirName level next p
    else
      match p.addSearch ready (filePath dirName name) text with
      | .error p => .returned (-1) p
      | .ok p => findLoop ready text dirName level next p
  | .dir name sub next, p =>
    if IsDots name then findLoop ready text dirName level next p
    else
      -- `this->execute(file, text)`: the level is `0` again
      match enter (filePath dirName name) sub p (findLoop ready text (filePath dirName name) 0 sub p) with
      | .thrown p => .thrown p
      | .returned r p => if r ≠ 0 then .returned (-1) p else findLoop ready text dirName level next p

/-- `FGrep::execute(dirName, text)`. -/
def execute (ready : List Nat → Nat) (dirName text : List Char) (listing : Listing) (p : SearchPool) : Outcome :=
  enter dirName listing p (findLoop ready text dirName 0 listing p)

/-- The path of an entry. -/
def join (dirName name : List Char) : List Char := dirName ++ '\\' :: name

namespace Listing

/-- The regular files of a tree, in the order in which they are listed. -/
def files (dirName : List Char) : Listing → List (List Char)
  | .done => []
  | .file name next => if IsDots name then next.files dirName else join dirName name :: next.files dirName
  | .dir name sub next =>
    if IsDots name then next.files dirName else sub.files (join dirName name) ++ next.files dirName

/-- All paths of the tree fit, and every subdirectory lists at least `"."` and `".."`. -/
def Tree (dirName : List Char) : Listing → Prop
  | .done => True
  | .file name next => (¬ IsDots name → (join dirName name).length < maxPath) ∧ next.Tree dirName
  | .dir name sub next =>
    (¬ IsDots name → (join dirName name).length < maxPath ∧ sub ≠ .done ∧ sub.Tree (join dirName name)) ∧
      next.Tree dirName

/-- The first entry, the first entry of that, and so on, down to a regular file. -/
def FileFirst : Listing → Prop
  | .done => False
  | .file name next => IsDots name → next.FileFirst
  | .dir name sub next => if IsDots name then next.FileFirst else sub.FileFirst

/-- The paths of the directories leave room for the pattern and one more character. -/
def ShortDirs (dirName : List Char) : Listing → Prop
  | .done => True
  | .file _ next => next.ShortDirs dirName
  | .dir name sub next =>
    (¬ IsDots name → (join dirName name).length ≤ maxPath - 3 ∧ sub.ShortDirs (join dirName name)) ∧
      next.ShortDirs dirName

end Listing

/-- A path that fits is not cut. -/
lemma filePath_eq {dirName name : List Char} (fits : (join dirName name).length < maxPath) :
    filePath dirName name = join dirName name := by
  rw [join, List.length_append, List.length_cons] at fits
  rw [filePath, stringCchCat, stringCchCat, stringCchCopy, List.take_of_length_le (l := dirName) (by omega),
    List.take_of_length_le (l := dirName ++ _) (by rw [List.length_append, List.length_singleton]; omega),
    List.take_of_length_le, List.append_assoc]
  · rfl
  · rw [List.length_append, List.length_append, List.length_singleton]
    omega

/-- A tree that begins with a file has one. -/
lemma Listing.files_ne_nil {l : Listing} (first : l.FileFirst) (dirName : List Char) : l.files dirName ≠ [] := by
  induction l generalizing dirName with
  | done => exact first.elim
  | file name next ih =>
    rw [files]
    split_ifs with dots
    · exact ih (first dots) dirName
    · exact List.cons_ne_nil _ _
  | dir name sub next ihs ihn =>
    rw [files]
    rw [FileFirst] at first
    split_ifs at first ⊢ with dots
    · exact ihn first dirName
    · exact List.append_ne_nil_of_left_ne_nil (ihs first _) _

/-- A slot is filled with the last one. -/
lemma mem_swapRemove {l : List Nat} {h i : Nat} (lt : h < l.length) (mem : i ∈ l) :
    i = l.getD h 0 ∨ i ∈ (l.set h (l.getLastD 0)).dropLast := by
  rw [List.getD_eq_getElem?_getD, List.getElem?_eq_getElem lt, Option.getD_some]
  exact List.mem_cons.1 ((Packed.dropLast_fill_perm lt).mem_iff.2 mem)

/-- A directory whose path leaves room for the pattern is searched. -/
lemma enter_of_short {dirName : List Char} {listing : Listing} {p : SearchPool} {body : Outcome}
    (short : dirName.length ≤ maxPath - 3) (ne : listing ≠ .done) : enter dirName listing p body = body := by
  have fits : ¬ maxPath - 3 < stringCchLength dirName := by
    rw [maxPath] at short ⊢
    rw [stringCchLength, maxPath, if_pos (by omega)]
    omega
  rw [enter.eq_def, if_neg fits]
  cases listing with
  | done => exact absurd rfl ne
  | file => rfl
  | dir => rfl

/-- A path without room for the pattern is refused. -/
lemma enter_of_long {dirName : List Char} {listing : Listing} {p : SearchPool} {body : Outcome}
    (fits : dirName.length < maxPath) (long : maxPath - 3 < dirName.length) :
    enter dirName listing p body = .returned (-1) p := by
  rw [enter.eq_def, stringCchLength, if_pos fits, if_pos long]

/-- Every search that has been started is waited for, or has its handle in the pool. -/
structure SearchPool.Inv (p : SearchPool) (maxSize : Nat) : Prop where
  max : p.maxSize = maxSize
  size : p.handles.length = min p.started.length maxSize
  known : ∀ i < p.started.length, i ∈ p.finished ∨ i ∈ p.handles

/-- Every search that has been started has been waited for. -/
def SearchPool.AllFinished (p : SearchPool) : Prop := ∀ i < p.started.length, i ∈ p.finished

section

variable {ready : List Nat → Nat} {maxSize : Nat} {p p' : SearchPool} {text : List Char}
  (documented : ∀ hs, hs ≠ [] → ready hs < hs.length) (pos : 0 < maxSize) (int : maxSize < 2 ^ 31)

/-- An empty pool. -/
lemma SearchPool.inv_new (maxSize : Nat) : (SearchPool.new maxSize).Inv maxSize := ⟨rfl, (Nat.zero_min _).symm, nofun⟩

/-- A search is started. -/
lemma SearchPool.Inv.start {file : List Char} (inv : p.Inv maxSize) {hs done : List Nat}
    (size : hs.length + 1 = min (p.started.length + 1) maxSize)
    (known : ∀ i < p.started.length, i ∈ done ∨ i ∈ hs) :
    SearchPool.Inv ⟨p.maxSize, hs ++ [p.started.length], p.started ++ [(file, text)], done⟩ maxSize := by
  refine ⟨inv.max, ?_, ?_⟩
  · rw [List.length_append, List.length_append, List.length_singleton, List.length_singleton, size]
  · intro i lt
    rw [List.length_append, List.length_singleton] at lt
    rw [List.mem_append, List.mem_singleton, ← or_assoc]
    cases Nat.lt_succ_iff_lt_or_eq.1 lt with
    | inl lt => exact .inl (known i lt)
    | inr eq => exact .inr eq

include documented int

/-- The wait succeeds for lists of one to `MAXIMUM_WAIT_OBJECTS` handles. -/
lemma wait_lt_iff (inv : p.Inv maxSize) :
    waitForMultipleObjects ready p.handles < p.handles.length ↔
      p.handles ≠ [] ∧ p.handles.length ≤ maximumWaitObjects := by
  have le : p.handles.length ≤ maxSize := inv.size ▸ Nat.min_le_right _ _
  rw [waitForMultipleObjects]
  split_ifs with bad
  · refine iff_of_false ?_ ?_
    · rw [waitFailed]
      omega
    · rintro ⟨ne, small⟩
      exact bad.elim ne small.not_gt
  · rw [not_or, Nat.not_lt] at bad
    exact iff_of_true (documented _ bad.1) bad

include pos

/-- `addSearch` starts a search, and throws only for a pool that is too large. -/
lemma addSearch_spec (inv : p.Inv maxSize) (file : List Char) :
    (∃ p', p.addSearch ready file text = .ok p' ∧ p'.Inv maxSize ∧ p'.started = p.started ++ [(file, text)]) ∧
        (maxSize ≤ maximumWaitObjects ∨ p.started.length + 1 ≤ maxSize) ∨
      p.addSearch ready file text = .error p ∧ maximumWaitObjects < maxSize ∧ maxSize ≤ p.started.length := by
  have size := inv.size
  have wait := wait_lt_iff documented int inv
  rw [SearchPool.addSearch, inv.max]
  by_cases full : p.handles.length = maxSize
  · rw [if_pos full, SearchPool.waitForOne]
    have ne : p.handles ≠ [] := by
      rintro nil
      rw [nil] at full
      exact pos.ne full
    rw [full] at wait
    by_cases small : maxSize ≤ maximumWaitObjects
    · have lt := wait.2 ⟨ne, small⟩
      rw [full, if_neg lt.not_ge]
      refine .inl ⟨⟨_, rfl, inv.start ?_ ?_, rfl⟩, .inl small⟩
      · rw [List.length_dropLast, List.length_set]
        omega
      · intro i known
        rw [List.mem_cons, or_comm (a := i = _), or_assoc]
        exact (inv.known i known).imp_right (mem_swapRemove (full.symm ▸ lt))
    · rw [full, if_pos (Nat.le_of_not_lt fun lt => small (wait.1 lt).2)]
      exact .inr ⟨rfl, Nat.lt_of_not_le small, by omega⟩
  · rw [if_neg full]
    exact .inl ⟨⟨_, rfl, inv.start (by omega) inv.known, rfl⟩, .inr (by omega)⟩

/-- The wait succeeds if there are handles to wait for, and not too many. -/
lemma waitForSearchCompletion_spec (inv : p.Inv maxSize) :
    (∃ p', p.waitForSearchCompletion ready = .ok p' ∧ p'.Inv maxSize ∧ p'.started = p.started ∧ p'.AllFinished) ∧
        p.started ≠ [] ∧ (maxSize ≤ maximumWaitObjects ∨ p.started.length ≤ maximumWaitObjects) ∨
      p.waitForSearchCompletion ready = .error p ∧
        ¬ (p.started ≠ [] ∧ (maxSize ≤ maximumWaitObjects ∨ p.started.length ≤ maximumWaitObjects)) := by
  have size := inv.size
  have wait := wait_lt_iff documented int inv
  have nil : p.handles ≠ [] ↔ p.started ≠ [] := by
    rw [← List.length_pos_iff, ← List.length_pos_iff, size]
    omega
  have small : p.handles.length ≤ maximumWaitObjects ↔
      maxSize ≤ maximumWaitObjects ∨ p.started.length ≤ maximumWaitObjects := by
    rw [size]
    omega
  rw [nil, small] at wait
  rw [SearchPool.waitForSearchCompletion]
  split_ifs with failed
  · exact .inr ⟨rfl, fun good => absurd (wait.2 good) failed.not_gt⟩
  · refine .inl ⟨⟨_, rfl, ⟨inv.max, size, ?_⟩, rfl, ?_⟩, wait.1 (Nat.lt_of_not_le failed)⟩
    · exact fun i lt => .inl (List.mem_append.2 (inv.known i lt).symm)
    · exact fun i lt => List.mem_append.2 (inv.known i lt).symm

/-- The searches of a tree are started and waited for. -/
lemma findLoop_of_good {dirName : List Char} {l : Listing} (inv : p.Inv maxSize) (tree : l.Tree dirName)
    (fed : p.started ≠ [] ∨ l.FileFirst) (short : l.ShortDirs dirName)
    (few : maxSize ≤ maximumWaitObjects ∨ p.started.length + (l.files dirName).length ≤ maximumWaitObjects) :
    ∃ p', findLoop ready text dirName 0 l p = .returned 0 p' ∧ p'.Inv maxSize ∧
      p'.started = p.started ++ (l.files dirName).map (·, text) ∧ p'.AllFinished := by
  induction l generalizing dirName p with
  | done =>
    rcases waitForSearchCompletion_spec documented pos int inv with ⟨⟨p', run, inv', same, all⟩, -⟩ | ⟨-, bad⟩
    · refine ⟨p', ?_, inv', ?_, all⟩
      · rw [findLoop, if_pos rfl, run]
      · rw [same]
        exact (List.append_nil _).symm
    · exact absurd ⟨fed.resolve_right id, few⟩ bad
  | file name next ih =>
    rw [findLoop]
    rw [Listing.files] at few ⊢
    by_cases dots : IsDots name
    · rw [if_pos dots] at few ⊢
      rw [if_pos dots]
      exact ih inv tree.2 (fed.imp_right fun first => first dots) short few
    · rw [if_neg dots, List.length_cons] at few
      rw [if_neg dots, if_neg dots, filePath_eq (tree.1 dots)]
      rcases addSearch_spec documented pos int inv (join dirName name) with
        ⟨⟨p₁, run, inv₁, started⟩, -⟩ | ⟨-, large, le⟩
      · rw [run]
        have grown : p₁.started ≠ [] := by
          rw [started]
          exact List.append_ne_nil_of_right_ne_nil _ (List.cons_ne_nil _ _)
        obtain ⟨p', run', inv', started', all⟩ := ih inv₁ tree.2 (.inl grown) short (by
          rw [started, List.length_append, List.length_singleton]
          omega)
        refine ⟨p', run', inv', ?_, all⟩
        rw [started', started, List.append_assoc]
        rfl
      · omega
  | dir name sub next ihs ihn =>
    rw [findLoop]
    rw [Listing.files] at few ⊢
    by_cases dots : IsDots name
    · rw [if_pos dots] at few ⊢
      rw [if_pos dots]
      refine ihn inv tree.2 (fed.imp_right fun first => ?_) short.2 few
      rwa [Listing.FileFirst, if_pos dots] at first
    · rw [if_neg dots, List.length_append] at few
      obtain ⟨fits, ne, subtree⟩ := tree.1 dots
      obtain ⟨shorter, subshort⟩ := short.1 dots
      have fed' : p.started ≠ [] ∨ sub.FileFirst := by
        refine fed.imp_right fun first => ?_
        rwa [Listing.FileFirst, if_neg dots] at first
      rw [if_neg dots, if_neg dots, filePath_eq fits]
      obtain ⟨p₁, run, inv₁, started, -⟩ := ihs inv subtree fed' subshort (by omega)
      rw [run, enter_of_short shorter ne]
      dsimp only
      rw [if_neg (not_not.2 rfl)]
      have grown : p₁.started ≠ [] := by
        rw [started]
        cases fed' with
        | inl before => exact List.append_ne_nil_of_left_ne_nil before _
        | inr first =>
          exact List.append_ne_nil_of_right_ne_nil _ fun nil => Listing.files_ne_nil first _ (List.map_eq_nil_iff.1 nil)
      obtain ⟨p', run', inv', started', all⟩ := ihn inv₁ tree.2 (.inl grown) short.2 (by
        rw [started, List.length_append, List.length_map]
        omega)
      refine ⟨p', run', inv', ?_, all⟩
      rw [started', started, List.append_assoc, List.map_append]

/-- A walk that returns `0` has found its way. -/
lemma good_of_findLoop {dirName : List Char} {l : Listing} (inv : p.Inv maxSize) (tree : l.Tree dirName)
    (run : findLoop ready text dirName 0 l p = .returned 0 p') :
    (p.started ≠ [] ∨ l.FileFirst) ∧ l.ShortDirs dirName ∧
      (maxSize ≤ maximumWaitObjects ∨ p.started.length + (l.files dirName).length ≤ maximumWaitObjects) := by
  induction l generalizing dirName p p' with
  | done =>
    rw [findLoop, if_pos rfl] at run
    rcases waitForSearchCompletion_spec documented pos int inv with ⟨-, ne, few⟩ | ⟨failed, -⟩
    · exact ⟨.inl ne, trivial, few⟩
    · rw [failed] at run
      cases run
  | file name next ih =>
    rw [findLoop] at run
    rw [Listing.files]
    by_cases dots : IsDots name
    · rw [if_pos dots] at run ⊢
      obtain ⟨fed, short, few⟩ := ih inv tree.2 run
      exact ⟨fed.imp_right fun first _ => first, short, few⟩
    · rw [if_neg dots, filePath_eq (tree.1 dots)] at run
      rw [if_neg dots, List.length_cons]
      rcases addSearch_spec documented pos int inv (join dirName name) with
        ⟨⟨p₁, add, inv₁, started⟩, -⟩ | ⟨failed, -⟩
      · rw [add] at run
        obtain ⟨-, short, few⟩ := ih inv₁ tree.2 run
        rw [started, List.length_append, List.length_singleton] at few
        exact ⟨.inr fun dots' => absurd dots' dots, short, by omega⟩
      · rw [failed] at run
        cases run
  | dir name sub next ihs ihn =>
    rw [findLoop] at run
    rw [Listing.files]
    by_cases dots : IsDots name
    · rw [if_pos dots] at run ⊢
      obtain ⟨fed, short, few⟩ := ihn inv tree.2 run
      refine ⟨fed.imp_right fun first => ?_, ⟨fun dots' => absurd dots dots', short⟩, few⟩
      rwa [Listing.FileFirst, if_pos dots]
    · obtain ⟨fits, ne, subtree⟩ := tree.1 dots
      rw [if_neg dots, filePath_eq fits] at run
      rw [if_neg dots, List.length_append]
      -- the subdirectory returns `0`, or the directory does not
      by_cases shorter : (join dirName name).length ≤ maxPath - 3
      · rw [enter_of_short shorter ne] at run
        cases body : findLoop ready text (join dirName name) 0 sub p with
        | thrown p₁ =>
          rw [body] at run
          cases run
        | returned r p₁ =>
          rw [body] at run
          dsimp only at run
          split_ifs at run with zero
          · cases run
          · rw [not_not.1 zero] at body
            obtain ⟨fed, subshort, few⟩ := ihs inv subtree body
            obtain ⟨p₂, again, inv₂, started, -⟩ := findLoop_of_good documented pos int inv subtree fed subshort few
            cases body.symm.trans again
            obtain ⟨-, short, few'⟩ := ihn inv₂ tree.2 run
            rw [started, List.length_append, List.length_map] at few'
            refine ⟨fed.imp_right fun first => ?_, ⟨fun _ => ⟨shorter, subshort⟩, short⟩, by omega⟩
            rwa [Listing.FileFirst, if_neg dots]
      · rw [enter_of_long fits (Nat.lt_of_not_le shorter)] at run
        cases run

end

/-- A call of `execute` is what it should be: it returns `0`, has started one search for each regular file and nothing
else, and all searches are finished. -/
def Outcome.Complete (o : Outcome) (dirName text : List Char) (listing : Listing) : Prop :=
  ∃ p, o = .returned 0 p ∧ p.started = (listing.files dirName).map (·, text) ∧ p.AllFinished

/-- A tree is searched completely if and only if the first entry of the root, the first entry of that, and so on, lead to
a regular file, the paths of the directories leave room for a pattern, and no wait is for more handles than
`WaitForMultipleObjects` takes. -/
theorem fgrep_complete_iff {ready : List Nat → Nat} {maxSize : Nat} {dirName text : List Char} {listing : Listing}
    (documented : ∀ hs, hs ≠ [] → ready hs < hs.length) (pos : 0 < maxSize) (int : maxSize < 2 ^ 31)
    (fits : dirName.length < maxPath) (tree : listing.Tree dirName) :
    (execute ready dirName text listing (.new maxSize)).Complete dirName text listing ↔
      listing.FileFirst ∧ dirName.length ≤ maxPath - 3 ∧ listing.ShortDirs dirName ∧
        (maxSize ≤ maximumWaitObjects ∨ (listing.files dirName).length ≤ maximumWaitObjects) := by
  have inv := SearchPool.inv_new maxSize
  constructor
  · rintro ⟨p, run, -⟩
    by_cases short : dirName.length ≤ maxPath - 3
    · by_cases ne : listing = .done
      · rw [ne, execute, enter.eq_def, if_neg] at run
        · cases run
        · rw [stringCchLength, if_pos fits]
          exact short.not_gt
      · rw [execute, enter_of_short short ne] at run
        obtain ⟨fed, dirs, few⟩ := good_of_findLoop documented pos int inv tree run
        refine ⟨fed.resolve_left fun ne => ne rfl, short, dirs, ?_⟩
        rwa [SearchPool.new, List.length_nil, Nat.zero_add] at few
    · rw [execute, enter_of_long fits (Nat.lt_of_not_le short)] at run
      cases run
  · rintro ⟨first, short, dirs, few⟩
    have ne : listing ≠ .done := by
      rintro rfl
      exact first
    obtain ⟨p, run, -, started, all⟩ := findLoop_of_good documented pos int inv tree (.inr first) dirs
      (by rwa [SearchPool.new, List.length_nil, Nat.zero_add])
    refine ⟨p, ?_, started, all⟩
    rw [execute, enter_of_short short ne]
    exact run

/-- The listing of a directory with the entries `"."` and `".."`. -/
def Listing.dots (l : Listing) : Listing := .dir ['.'] .done (.dir ['.', '.'] .done l)

/-- A regular file, and an empty directory after it. -/
theorem fgrep_complete_iff_two :
    (execute (fun _ => 0) ['r'] ['x'] (.dots (.file ['a'] (.dir ['d'] (.dots .done) .done))) (.new 20)).Complete ['r'] ['x']
      (.dots (.file ['a'] (.dir ['d'] (.dots .done) .done))) := by
  refine (fgrep_complete_iff (fun _ ne => List.length_pos_iff.2 ne) (by decide) (by decide) (by decide)
    (by simp [Listing.dots, Listing.Tree, join, maxPath])).2 ?_
  refine ⟨?_, by decide, ?_, .inl (by decide)⟩
  · simp [Listing.dots, Listing.FileFirst, IsDots]
  · simp [Listing.dots, Listing.ShortDirs, IsDots, join, maxPath]

/-- An empty directory, and a regular file after it: the end of the empty directory is waited for, with no handles. -/
theorem not_complete_of_empty :
    ¬ (execute (fun _ => 0) ['r'] ['x'] (.dots (.dir ['d'] (.dots .done) (.file ['a'] .done))) (.new 20)).Complete ['r'] ['x']
      (.dots (.dir ['d'] (.dots .done) (.file ['a'] .done))) := by
  rintro ⟨p, run, -⟩
  have thrown : execute (fun _ => 0) ['r'] ['x'] (.dots (.dir ['d'] (.dots .done) (.file ['a'] .done))) (.new 20) =
    .thrown (.new 20) := rfl
  cases thrown.symm.trans run

end PDS.Cpp
