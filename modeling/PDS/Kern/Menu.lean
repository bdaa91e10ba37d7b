import PDS.Lib.CString
import PDS.Lib.Runs

/-!
# The kernel menu

Port of `common/libc/string/strtok_r.c` and of `cmd_dispatch` and `menu_execute` in `kern/startup/menu.c`. The line is a
string in memory, which `strtok_r` cuts into pieces in place; a command gets pointers into it. The table of commands is a
parameter: a command is any function of the arguments and of a state of the world, that returns a code. Loops over a
string have fuel, and without it the model has no result.
-/

namespace PDS.Kern
open CString Runs

abbrev LineMem := Nat → UInt8

/-- Tokenizes a string by a list of separators; the results are the memory, `*context` and the word (C `strtok_r`). -/
def strtokR (fuel : Nat) (m : LineMem) (string : Option Nat) (seps : List UInt8) (context : Option Nat) :
    Option (LineMem × Option Nat × Option Nat) :=
  -- "If we're starting up, initialize context"
  match string.or context with
  | none => some (m, none, none)
  | some head => do
    let head ← scan (fun c => seps.contains c) m fuel head
    if m head = 0 then some (m, none, none)
    else
      let tail ← scan (fun c => !seps.contains c) m fuel head
      if m tail = 0 then some (m, none, some head)
      else some (Function.update m tail 0, some (tail + 1), some head)

/-- Size of `args` (C `MAXMENUARGS`). -/
def maxmenuargs : Nat := 16

/-- C `EINVAL`. -/
def menuEinval : Int := 8

/-- C `E2BIG`. -/
def menuE2big : Int := 14

/-- Number of texts in `sys_errlist` (C `sys_nerr`). -/
def sysNerr : Int := 65

/-- The code has a text; C `strerror` panics for any other. -/
def HasText (errcode : Int) : Prop := 0 ≤ errcode ∧ errcode < sysNerr

instance (errcode : Int) : Decidable (HasText errcode) := inferInstanceAs (Decidable (_ ∧ _))

/-- What is printed. -/
inductive MenuMessage where
  /-- `"OS/161 kernel: %s\n"` -/
  | kernel (command : List UInt8)
  /-- `"Command line has too many words\n"` -/
  | tooManyWords
  /-- `"Operation took %lu.%09lu seconds\n"` -/
  | operationTook
  /-- `"%s: Command not found\n"` -/
  | commandNotFound (name : List UInt8)
  /-- `"Menu command failed: %s\n"`, for the code -/
  | commandFailed (code : Int)
deriving DecidableEq, Repr

/-- An entry of the table of commands (in C `cmdtable`). -/
structure MenuEntry (σ : Type) where
  name : List UInt8
  func : σ → List (List UInt8) → σ × Int

/-- What the command returns is a code of `kern/errno.h`. -/
def MenuEntry.Errno {σ : Type} (entry : MenuEntry σ) : Prop := ∀ world args, HasText (entry.func world args).2

/-- The world, and what has been printed. -/
structure Menu (σ : Type) where
  world : σ
  console : List MenuMessage

/-- How the evaluation of a line ends. -/
inductive MenuEnd where
  | returns
  /-- `panic("Failure processing kernel arguments\n")` -/
  | panics
  /-- `panic("Invalid error code %d\n", errcode)`, in `strerror` -/
  | invalidCode (errcode : Int)
deriving DecidableEq, Repr

variable {σ : Type}

/-- C `kprintf`. -/
def Menu.print (menu : Menu σ) (message : MenuMessage) : Menu σ := { menu with console := menu.console ++ [message] }

/-- The loop of `cmd_dispatch`; the words are none when there are too many. -/
def wordLoop (fuel : Nat) :
    Nat → LineMem → Option Nat → Option Nat → List Nat → Option (LineMem × Option (List Nat))
  | 0, _, _, _, _ => none
  | n + 1, m, string, context, args => do
    -- " \t"
    let (m, context, word) ← strtokR fuel m string [32, 9] context
    match word with
    | none => some (m, some args)
    | some word => if args.length ≥ maxmenuargs then some (m, none) else wordLoop fuel n m none context (args ++ [word])

/-- The entry for a name: the first that has it, and not one whose name is empty. -/
def findCommand (cmdtable : List (MenuEntry σ)) (name : List UInt8) : Option (MenuEntry σ) :=
  cmdtable.find? fun entry => !entry.name.isEmpty && entry.name == name

/-- Processes a single command; the results are the memory, the menu and the code (C `cmd_dispatch`). -/
def cmdDispatch (fuel : Nat) (cmdtable : List (MenuEntry σ)) (m : LineMem) (menu : Menu σ) (cmd : Nat) :
    Option (LineMem × Menu σ × Int) := do
  let (m, args) ← wordLoop fuel fuel m (some cmd) none []
  match args with
  | none => some (m, menu.print .tooManyWords, menuE2big)
  | some args =>
    let argv ← args.mapM (readString m fuel)
    match argv with
    | [] => some (m, menu, 0)
    | name :: _ =>
      match findCommand cmdtable name with
      | some entry =>
        let (world, result) := entry.func menu.world argv
        some (m, Menu.print { menu with world := world } .operationTook, result)
      | none => some (m, menu.print (.commandNotFound name), menuEinval)

/-- "Print the commands as we execute them." -/
def announce (fuel : Nat) (isargs : Bool) (m : LineMem) (menu : Menu σ) (command : Nat) : Option (Menu σ) :=
  if isargs then (readString m fuel command).map fun text => menu.print (.kernel text) else some menu

/-- The loop of `menu_execute`. -/
def commandLoop (fuel : Nat) (cmdtable : List (MenuEntry σ)) (isargs : Bool) :
    Nat → LineMem → Menu σ → Option Nat → Option Nat → Option (LineMem × Menu σ × MenuEnd)
  | 0, _, _, _, _ => none
  | n + 1, m, menu, string, context => do
    -- ";"
    let (m, context, command) ← strtokR fuel m string [59] context
    match command with
    | none => some (m, menu, .returns)
    | some command =>
      let menu ← announce fuel isargs m menu command
      let (m, menu, result) ← cmdDispatch fuel cmdtable m menu command
      if result ≠ 0 then
        if HasText result then
          let menu := menu.print (.commandFailed result)
          if isargs then some (m, menu, .panics) else commandLoop fuel cmdtable isargs n m menu none context
        else some (m, menu, .invalidCode result)
      else commandLoop fuel cmdtable isargs n m menu none context

/-- Evaluates a command line "that may contain multiple semicolon-delimited commands" (C `menu_execute`). -/
def menuExecute (fuel : Nat) (cmdtable : List (MenuEntry σ)) (isargs : Bool) (m : LineMem) (menu : Menu σ)
    (line : Nat) : Option (LineMem × Menu σ × MenuEnd) :=
  commandLoop fuel cmdtable isargs fuel m menu (some line) none

/-- The segments of a line. -/
def segments (line : List UInt8) : List (List UInt8) := runs (fun c => [59].contains c) line

/-- The words of a segment. -/
def words (segment : List UInt8) : List (List UInt8) := runs (fun c => [32, 9].contains c) segment

/-- What a segment comes to. -/
def dispatchSegment (cmdtable : List (MenuEntry σ)) (menu : Menu σ) (segment : List UInt8) : Menu σ × Int :=
  if maxmenuargs < (words segment).length then (menu.print .tooManyWords, menuE2big)
  else
    match words segment with
    | [] => (menu, 0)
    | name :: args =>
      match findCommand cmdtable name with
      | some entry =>
        let (world, result) := entry.func menu.world (name :: args)
        (Menu.print { menu with world := world } .operationTook, result)
      | none => (menu.print (.commandNotFound name), menuEinval)

/-- What a list of segments comes to: one after the other, up to the first that fails if `isargs` is set, and in any case
up to the first that returns a code without a text. -/
def dispatchSegments (cmdtable : List (MenuEntry σ)) (isargs : Bool) (menu : Menu σ) :
    List (List UInt8) → Menu σ × MenuEnd
  | [] => (menu, .returns)
  | segment :: rest =>
    let menu := if isargs then menu.print (.kernel segment) else menu
    let (menu, result) := dispatchSegment cmdtable menu segment
    if result ≠ 0 then
      if HasText result then
        let menu := menu.print (.commandFailed result)
        if isargs then (menu, .panics) else dispatchSegments cmdtable isargs menu rest
      else (menu, .invalidCode result)
    else dispatchSegments cmdtable isargs menu rest

section

variable {m m' : LineMem} {fuel n lo hi p : Nat} {string context : Option Nat} {seps s t : List UInt8}

/-- What remains to be tokenized is `s`, between `lo` and `hi`. -/
def Remains (m : LineMem) (lo hi : Nat) (context : Option Nat) (s : List UInt8) : Prop :=
  context = none ∧ s = [] ∨ ∃ p, context = some p ∧ lo ≤ p ∧ p + s.length = hi ∧ StringAt m p s

/-- What remains depends on the bytes from `lo` on only. -/
lemma Remains.congr (h : Remains m lo hi context s) (same : ∀ x, lo ≤ x → m' x = m x) : Remains m' lo hi context s := by
  obtain none | ⟨p, start, low, high, at_⟩ := h
  · exact .inl none
  · exact .inr ⟨p, start, low, high, at_.congr fun x ge _ => same x (low.trans ge)⟩

/-- What `strtok_r` finds in `s`: nothing, or the first run, in front of what remains. -/
inductive Token (fuel : Nat) (m : LineMem) (string : Option Nat) (seps : List UInt8) (context : Option Nat) (lo hi : Nat)
    (s : List UInt8) : Prop where
  | none : runs (fun c => seps.contains c) s = [] → strtokR fuel m string seps context = some (m, none, none) → Token ..
  | word {m' : LineMem} {context' : Option Nat} {head : Nat} {w t : List UInt8} :
    strtokR fuel m string seps context = some (m', context', some head) →
    runs (fun c => seps.contains c) s = w :: runs (fun c => seps.contains c) t → t.length < s.length → lo ≤ head →
    head + w.length ≤ hi → StringAt m' head w → Remains m' (head + w.length + 1) hi context' t →
    (∀ x, x < lo ∨ hi ≤ x → m' x = m x) → Token ..

/-- A token is cut off at the separator behind it. -/
lemma strtokR_of_some {head tail : Nat} (start : string.or context = some p)
    (skip : scan (fun c => seps.contains c) m fuel p = some head) (nonzero : m head ≠ 0)
    (word : scan (fun c => !seps.contains c) m fuel head = some tail) :
    strtokR fuel m string seps context =
      if m tail = 0 then some (m, none, some head) else some (Function.update m tail 0, some (tail + 1), some head) := by
  rw [strtokR, start]
  dsimp only
  rw [skip, Option.bind_eq_bind, Option.bind_some, if_neg nonzero, word, Option.bind_some]

variable (seps) in
/-- `strtok_r` finds the first run. -/
lemma strtokR_token (h : Remains m lo hi (string.or context) s) (enough : s.length < fuel) :
    Token fuel m string seps context lo hi s := by
  obtain ⟨start, rfl⟩ | ⟨p, start, low, high, at_⟩ := h
  · refine .none runs_nil ?_
    rw [strtokR, start]
  by_cases blank : ∀ c ∈ s, seps.contains c = true
  · have whole : StringAt m p (s ++ []) := by rwa [List.append_nil]
    have skip := scan_eq whole enough blank (.inl rfl)
    refine .none (runs_of_blanks blank) ?_
    rw [strtokR, start]
    dsimp only
    rw [skip, Option.bind_eq_bind, Option.bind_some, if_pos at_.stop]
  · obtain ⟨b, w, r, rfl, blanks, ne, solid, stop⟩ := exists_first blank
    obtain ⟨c, w', eq⟩ := List.exists_cons_of_ne_nil ne
    rw [List.length_append, List.length_append] at enough high
    have cut : w ++ r = c :: (w' ++ r) := by rw [eq, List.cons_append]
    have skip := scan_eq at_ (show b.length < fuel by omega) blanks
      (.inr ⟨c, w' ++ r, cut, solid c (eq ▸ List.mem_cons_self)⟩)
    have inner : StringAt m (p + b.length) (w ++ r) := at_.drop
    have nonzero : m (p + b.length) ≠ 0 := by
      have first := inner
      rw [cut] at first
      rw [first.head.1]
      exact first.head.2
    have word := scan_eq (f := fun c => !seps.contains c) inner (show w.length < fuel by omega)
      (fun c mem => by rw [solid c mem]; rfl) (stop.imp_right fun ⟨c, t, eq, sep⟩ => ⟨c, t, eq, by rw [sep]; rfl⟩)
    have run := strtokR_of_some start skip nonzero word
    have some_ : 0 < w.length := List.length_pos_of_ne_nil ne
    obtain rfl | ⟨d, t, rfl, sep⟩ := stop
    · have ends : m (p + b.length + w.length) = 0 := inner.drop.stop
      have only : StringAt m (p + b.length) w := by
        rw [List.append_nil] at inner
        exact inner
      rw [if_pos ends] at run
      refine .word (t := []) run ?_ ?_ (by omega) (by omega) only (.inl ⟨rfl, rfl⟩) (fun x _ => rfl)
      · rw [runs_blanks blanks, List.append_nil, runs_word solid ne, runs_nil]
      · rw [List.length_append, List.length_append, List.length_nil]
        omega
    · have sepAt := inner.drop.head
      rw [List.length_cons] at enough high
      rw [if_neg (by rw [sepAt.1]; exact sepAt.2)] at run
      have other {x : Nat} (ne : x ≠ p + b.length + w.length) :
          Function.update m (p + b.length + w.length) 0 x = m x := Function.update_of_ne ne _ _
      refine .word (t := t) run ?_ ?_ (by omega) (by omega) ⟨?_, Function.update_self _ _ _, ?_⟩
        (.inr ⟨_, rfl, le_refl _, by omega, ?_⟩) ?_
      · rw [runs_blanks blanks, runs_word_cons solid ne sep]
      · rw [List.length_append, List.length_append, List.length_cons]
        omega
      · exact (charsAt_append.1 inner.chars).1.congr fun x ge lt => other (by omega)
      · exact fun mem => inner.solid (List.mem_append_left _ mem)
      · exact inner.drop.tail.congr fun x ge le => other (by omega)
      · exact fun x out => other (by omega)

/-- The words that have been found are below `lo`. -/
def Found (m : LineMem) (lo : Nat) (args : List Nat) (found : List (List UInt8)) : Prop :=
  List.Forall₂ (fun a w => StringAt m a w ∧ a + w.length < lo) args found

/-- The words that have been found lie before `lo`. -/
lemma Found.congr {args : List Nat} {found : List (List UInt8)} (h : Found m lo args found)
    (same : ∀ x < lo, m' x = m x) : Found m' lo args found := by
  refine List.Forall₂.imp ?_ h
  rintro a w ⟨at_, below⟩
  exact ⟨at_.congr fun x _ le => same x (by omega), below⟩

/-- One more word has been found. -/
lemma Found.snoc {args : List Nat} {found : List (List UInt8)} {a : Nat} {w : List UInt8} (h : Found m lo args found)
    (same : ∀ x < lo, m' x = m x) (at_ : StringAt m' a w) (le : lo ≤ a) :
    Found m' (a + w.length + 1) (args ++ [a]) (found ++ [w]) := by
  refine List.rel_append ?_ (.cons ⟨at_, Nat.lt_succ_self _⟩ .nil)
  refine List.Forall₂.imp ?_ (h.congr same)
  rintro b v ⟨at', below⟩
  exact ⟨at', by omega⟩

/-- The loop finds the words that remain, or that there are too many. -/
lemma wordLoop_spec {args : List Nat} {found : List (List UInt8)} (h : Remains m lo hi (string.or context) s)
    (enough : s.length < fuel) (turns : s.length < n) (some_ : Found m lo args found)
    (few : found.length ≤ maxmenuargs) :
    ∃ m' r, wordLoop fuel n m string context args = some (m', r) ∧ (∀ x, hi ≤ x → m' x = m x) ∧
      if maxmenuargs < (found ++ words s).length then r = none
      else ∃ args', r = some args' ∧ List.Forall₂ (StringAt m') args' (found ++ words s) := by
  induction n generalizing m string context s lo args found with
  | zero => exact absurd turns (Nat.not_lt_zero _)
  | succ n ih =>
    have length : args.length = found.length := some_.length_eq
    rw [wordLoop]
    cases strtokR_token [32, 9] h enough with
    | none last run =>
      have last : words s = [] := last
      rw [run, last, List.append_nil]
      refine ⟨m, some args, rfl, fun x _ => rfl, ?_⟩
      rw [if_neg (Nat.not_lt_of_le few)]
      exact ⟨args, rfl, some_.imp fun a w at_ => at_.1⟩
    | @word m' context' head w t run first shorter low high at_ remains same =>
      have first : words s = w :: words t := first
      rw [run, first, Option.bind_eq_bind, Option.bind_some]
      dsimp only
      by_cases full : args.length ≥ maxmenuargs
      · have many : maxmenuargs < (found ++ w :: words t).length := by
          rw [List.length_append, List.length_cons]
          omega
        rw [if_pos full]
        refine ⟨m', none, rfl, fun x ge => same x (.inr ge), ?_⟩
        rw [if_pos many]
      · have found' := some_.snoc (fun x lt => same x (.inl lt)) at_ low
        have few' : (found ++ [w]).length ≤ maxmenuargs := by
          rw [List.length_append, List.length_singleton]
          omega
        have remains' : Remains m' (head + w.length + 1) hi (Option.or none context') t := remains
        obtain ⟨m'', r, rest, same', result⟩ := ih remains' (by omega) (by omega) found' few'
        rw [List.append_assoc, List.singleton_append] at result
        rw [if_neg full]
        exact ⟨m'', r, rest, fun x ge => (same' x ge).trans (same x (.inr ge)), result⟩

variable {cmdtable : List (MenuEntry σ)} {menu : Menu σ} {isargs : Bool}

/-- The words are read from memory. -/
lemma mapM_readString {args : List Nat} {found : List (List UInt8)} (h : List.Forall₂ (StringAt m) args found)
    (enough : ∀ w ∈ found, w.length < fuel) : args.mapM (readString m fuel) = some found := by
  induction h with
  | nil => rfl
  | @cons a w args found at_ _ ih =>
    rw [List.mapM_cons, at_.read (enough w List.mem_cons_self), ih fun v mem => enough v (List.mem_cons_of_mem _ mem)]
    rfl

variable (cmdtable menu) in
/-- A command is processed as its segment says; behind it nothing changes. -/
lemma cmdDispatch_eq (at_ : StringAt m p s) (enough : s.length < fuel) :
    ∃ m', cmdDispatch fuel cmdtable m menu p = some (m', dispatchSegment cmdtable menu s) ∧
      ∀ x, p + s.length ≤ x → m' x = m x := by
  have start : Remains m p (p + s.length) (Option.or (some p) none) s := .inr ⟨p, rfl, le_refl _, rfl, at_⟩
  obtain ⟨m', r, run, same, result⟩ := wordLoop_spec start enough enough .nil (Nat.zero_le _)
  refine ⟨m', ?_, same⟩
  rw [List.nil_append] at result
  rw [cmdDispatch, run, dispatchSegment]
  split_ifs at result ⊢ with many
  · rw [result]
    rfl
  · obtain ⟨args, rfl, strings⟩ := result
    have read := mapM_readString strings fun w mem => Nat.lt_of_le_of_lt (length_le_of_mem_runs mem) enough
    rw [Option.bind_eq_bind, Option.bind_some]
    dsimp only
    rw [read, Option.bind_eq_bind, Option.bind_some]
    cases words s with
    | nil => rfl
    | cons name rest =>
      dsimp only
      cases findCommand cmdtable name with
      | none => rfl
      | some entry => rfl

/-- The loop dispatches the segments, by induction on the turns. -/
lemma commandLoop_spec (h : Remains m lo hi (string.or context) s) (enough : s.length < fuel) (turns : s.length < n) :
    ∃ m', commandLoop fuel cmdtable isargs n m menu string context =
      some (m', dispatchSegments cmdtable isargs menu (segments s)) := by
  induction n generalizing m string context s lo menu with
  | zero => exact absurd turns (Nat.not_lt_zero _)
  | succ n ih =>
    rw [commandLoop]
    cases strtokR_token [59] h enough with
    | none last run =>
      have last : segments s = [] := last
      rw [run, last]
      exact ⟨m, rfl⟩
    | @word m' context' head w t run first shorter low high at_ remains same =>
      have first : segments s = w :: segments t := first
      have short : w.length < fuel := by
        have mem : w ∈ segments s := first ▸ List.mem_cons_self
        exact Nat.lt_of_le_of_lt (length_le_of_mem_runs mem) enough
      have remains' (m'' : LineMem) (same : ∀ x, head + w.length ≤ x → m'' x = m' x) :
          Remains m'' (head + w.length + 1) hi (Option.or none context') t :=
        remains.congr fun x ge => same x (by omega)
      have printed : announce fuel isargs m' menu head = some (if isargs then menu.print (.kernel w) else menu) := by
        rw [announce, at_.read short]
        split_ifs <;> rfl
      obtain ⟨m'', done, kept⟩ := cmdDispatch_eq cmdtable
        (if isargs then menu.print (.kernel w) else menu) at_ short
      rw [run, first, dispatchSegments, Option.bind_eq_bind, Option.bind_some]
      dsimp only
      rw [printed, Option.bind_eq_bind, Option.bind_some, done, Option.bind_eq_bind, Option.bind_some]
      dsimp only
      split_ifs
      -- the line ends at a failure, or the loop goes on
      all_goals first | exact ⟨m'', rfl⟩ | exact ih (remains' m'' kept) (by omega) (by omega)

variable (cmdtable isargs menu) in
/-- `menu_execute` dispatches the segments of the line. -/
lemma menuExecute_eq (at_ : StringAt m p s) (enough : s.length < fuel) :
    ∃ m', menuExecute fuel cmdtable isargs m menu p = some (m', dispatchSegments cmdtable isargs menu (segments s)) :=
  commandLoop_spec (.inr ⟨p, rfl, le_refl _, rfl, at_⟩) enough enough

/-- A segment without words is skipped. -/
lemma dispatchSegment_of_nil (none : words s = []) : dispatchSegment cmdtable menu s = (menu, 0) := by
  rw [dispatchSegment, none, List.length_nil, if_neg (Nat.not_lt_zero _)]

/-- A segment with too many words is refused. -/
lemma dispatchSegment_of_many (many : maxmenuargs < (words s).length) :
    dispatchSegment cmdtable menu s = (menu.print .tooManyWords, menuE2big) := by
  rw [dispatchSegment, if_pos many]

/-- `strerror` knows what a segment comes to if the commands return codes of `kern/errno.h`. -/
lemma hasText_dispatchSegment (errno : ∀ entry ∈ cmdtable, entry.Errno) :
    HasText (dispatchSegment cmdtable menu s).2 := by
  rw [dispatchSegment]
  split_ifs
  · exact show HasText menuE2big by decide
  · cases words s with
    | nil => exact show HasText 0 by decide
    | cons name args =>
      dsimp only
      cases found : findCommand cmdtable name with
      | none => exact show HasText menuEinval by decide
      | some entry => exact errno entry (List.mem_of_find?_eq_some found) menu.world (name :: args)

/-- What becomes of the world does not depend on what has been printed. -/
lemma dispatchSegment_world :
    (dispatchSegment cmdtable menu s).1.world = (dispatchSegment cmdtable ⟨menu.world, []⟩ s).1.world := by
  rw [dispatchSegment, dispatchSegment]
  split_ifs
  · rfl
  · cases words s with
    | nil => rfl
    | cons name args =>
      dsimp only
      cases findCommand cmdtable name with
      | none => rfl
      | some entry => rfl

end

/-- All the segments, one after the other, whatever they return. -/
def allSegments (cmdtable : List (MenuEntry σ)) (world : σ) (segments : List (List UInt8)) : σ :=
  segments.foldl (fun world segment => (dispatchSegment cmdtable ⟨world, []⟩ segment).1.world) world

/-- Without `isargs` a failure stops nothing. -/
lemma dispatchSegments_world {cmdtable : List (MenuEntry σ)} (errno : ∀ entry ∈ cmdtable, entry.Errno) (menu : Menu σ)
    (segs : List (List UInt8)) :
    (dispatchSegments cmdtable false menu segs).1.world = allSegments cmdtable menu.world segs := by
  induction segs generalizing menu with
  | nil => rfl
  | cons segment segs ih =>
    rw [dispatchSegments, allSegments, List.foldl_cons, ← allSegments, ← dispatchSegment_world,
      if_neg Bool.false_ne_true]
    dsimp only
    rw [if_neg Bool.false_ne_true, if_pos (hasText_dispatchSegment errno)]
    split_ifs
    all_goals exact ih _

/-- `menu_execute` dispatches the segments of the line, in their order: with `isargs` up to the first that fails, without
it all of them, unless a command returns a code that `strerror` does not know. What a segment without words and one with
too many of them come to. -/
theorem menu_execute_dispatches (cmdtable : List (MenuEntry σ)) (isargs : Bool) (menu : Menu σ) {m : LineMem}
    {line fuel : Nat} {s : List UInt8} (at_ : StringAt m line s) (enough : s.length < fuel) :
    (∃ m', menuExecute fuel cmdtable isargs m menu line =
      some (m', dispatchSegments cmdtable isargs menu (segments s))) ∧
    (isargs = false → (∀ entry ∈ cmdtable, entry.Errno) →
      (dispatchSegments cmdtable isargs menu (segments s)).1.world = allSegments cmdtable menu.world (segments s)) ∧
    ∀ segment ∈ segments s, ∀ menu', (words segment = [] → dispatchSegment cmdtable menu' segment = (menu', 0)) ∧
      (maxmenuargs < (words segment).length → (dispatchSegment cmdtable menu' segment).2 = menuE2big ∧
        (dispatchSegment cmdtable menu' segment).1.world = menu'.world) := by
  refine ⟨menuExecute_eq cmdtable menu isargs at_ enough, ?_, ?_⟩
  · rintro rfl errno
    exact dispatchSegments_world errno menu _
  · intro segment _ menu'
    refine ⟨dispatchSegment_of_nil, fun many => ?_⟩
    rw [dispatchSegment_of_many many]
    exact ⟨rfl, rfl⟩

/-- Commands that note that they have been called: `"x"` fails and `"y"` does not. -/
def notingTable : List (MenuEntry (List (List (List UInt8)))) :=
  [⟨[120], fun calls args => (calls ++ [args], 1)⟩, ⟨[121], fun calls args => (calls ++ [args], 0)⟩]

/-- A line at the address `0`. -/
def lineMem (s : List UInt8) : LineMem := fun x => s.getD x 0

/-- `";; y  1;x"`. -/
theorem menu_execute_dispatches_two : ∃ m' menu',
    menuExecute 11 notingTable false (lineMem [59, 59, 32, 121, 32, 32, 49, 59, 120]) ⟨[], []⟩ 0 =
      some (m', menu', .returns) ∧ menu'.world = [[[121], [49]], [[120]]] := by
  have at_ : StringAt (lineMem [59, 59, 32, 121, 32, 32, 49, 59, 120]) 0 [59, 59, 32, 121, 32, 32, 49, 59, 120] :=
    ⟨by decide, by decide, by decide⟩
  have enough : [59, 59, 32, 121, 32, 32, 49, 59, 120].length < 11 := by decide
  obtain ⟨⟨m', run⟩, -⟩ := menu_execute_dispatches notingTable false ⟨[], []⟩ at_ enough
  exact ⟨m', _, run, rfl⟩

/-- With `isargs`, nothing is dispatched after a failure: `"x;y"`. -/
theorem menu_execute_stops : ¬ ∀ (isargs : Bool) (m : LineMem) (line fuel : Nat) (s : List UInt8), StringAt m line s →
    s.length < fuel → ∃ m' menu' ended, menuExecute fuel notingTable isargs m ⟨[], []⟩ line = some (m', menu', ended) ∧
      menu'.world = allSegments notingTable [] (segments s) := by
  intro all
  have at_ : StringAt (lineMem [120, 59, 121]) 0 [120, 59, 121] := ⟨by decide, by decide, by decide⟩
  obtain ⟨m', menu', ended, run, same⟩ := all true _ 0 4 _ at_ (by decide)
  obtain ⟨m'', run'⟩ := menuExecute_eq notingTable ⟨[], []⟩ true at_ (show 3 < 4 by decide)
  rw [run'] at run
  cases run
  exact absurd same (by decide)

end PDS.Kern
