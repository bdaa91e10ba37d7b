import Mathlib.Data.List.TakeWhile
import PDS.Libc.PrintfAtoi

/-!
# Line editing

Port of `kern/lib/kgets.c`. The terminal is what is on its current line, left and right of the cursor, and how many
lines have been begun. The console delivers characters of eight bits. `beep` makes a sound. What is written to the
buffer is noted.

The invariant (`KgetsInv`) says that the line up to the cursor is what `kgets` found there, as long as no new line has been
begun, and behind it what is in the buffer.
-/

namespace PDS.Kern
open Libc

/-- The current line of the terminal. -/
structure Terminal where
  /-- the text up to the cursor -/
  left : List UInt8
  /-- the text from the cursor on -/
  right : List UInt8
  /-- the number of new lines that have been begun -/
  lines : Nat

/-- Prints a character (C `putch`). -/
def Terminal.putch (t : Terminal) (ch : UInt8) : Terminal :=
  -- '\n'
  if ch = 10 then ⟨[], [], t.lines + 1⟩
  -- '\b'
  else if ch = 8 then
    match t.left.getLast? with
    | none => t
    | some c => ⟨t.left.dropLast, c :: t.right, t.lines⟩
  else if 32 ≤ ch ∧ ch < 127 then ⟨t.left ++ [ch], t.right.tail, t.lines⟩
  else t

/-- Does a backspace in typed input (C `backsp`). -/
def Terminal.backsp (t : Terminal) : Terminal := ((t.putch 8).putch 32).putch 8

/-- What `kgets` works on: `buf`, `pos`, the terminal, and where the buffer has been written. -/
structure Kgets where
  buf : Nat → UInt8
  pos : Nat
  term : Terminal
  written : List Nat

/-- `buf[pos] = ch`. -/
def Kgets.store (s : Kgets) (ch : UInt8) : Kgets :=
  { s with buf := Function.update s.buf s.pos ch, written := s.pos :: s.written }

/-- `while (pos > 0 && f(buf[pos-1]))`, with `backsp(); pos--;` in the loop; the results are `pos` and the terminal. -/
def eraseWhile (f : UInt8 → Bool) (buf : Nat → UInt8) : Nat → Terminal → Nat × Terminal
  | 0, t => (0, t)
  | pos + 1, t => if f (buf pos) then eraseWhile f buf pos t.backsp else (pos + 1, t)

/-- Erases characters before the cursor. -/
def Kgets.erase (s : Kgets) (f : UInt8 → Bool) : Kgets :=
  let (pos, term) := eraseWhile f s.buf s.pos s.term
  { s with pos := pos, term := term }

/-- `kprintf("^R\n%s", buf)`. -/
def reprint (maxlen : Nat) (buf : Nat → UInt8) (t : Terminal) : Terminal :=
  ([94, 82, 10] ++ cstring buf maxlen).foldl Terminal.putch t

/-- Processes a character; the flag says that the loop is left. -/
def kgetsChar (maxlen : Nat) (s : Kgets) (ch : UInt8) : Kgets × Bool :=
  -- '\n' and '\r'
  if ch = 10 ∨ ch = 13 then ({ s with term := s.term.putch 10 }, true)
  -- "Only allow the normal 7-bit ascii"
  else if 32 ≤ ch ∧ ch < 127 ∧ s.pos < maxlen - 1 then
    let s := { s with term := s.term.putch ch }
    let s := s.store ch
    ({ s with pos := s.pos + 1 }, false)
  -- backspace
  else if (ch = 8 ∨ ch = 127) ∧ s.pos > 0 then ({ s with term := s.term.backsp, pos := s.pos - 1 }, false)
  -- "^C - return empty string"
  else if ch = 3 then ({ s with term := ((s.term.putch 94).putch 67).putch 10, pos := 0 }, true)
  -- "^R - reprint input"
  else if ch = 18 then
    let s := s.store 0
    ({ s with term := reprint maxlen s.buf s.term }, false)
  -- "^U - erase line"
  else if ch = 21 then (s.erase fun _ => true, false)
  -- "^W - erase word"
  else if ch = 23 then ((s.erase (· == 32)).erase (· != 32), false)
  else (s, false)

/-- The loop, for the characters that are typed; the flag says that it has been left. -/
def kgetsLoop (maxlen : Nat) (s : Kgets) : List UInt8 → Kgets × Bool
  | [] => (s, false)
  | ch :: input =>
    let (s, left) := kgetsChar maxlen s ch
    if left then (s, true) else kgetsLoop maxlen s input

/-- At the start, with a prompt on the line. -/
def Kgets.start (buf : Nat → UInt8) (prompt : List UInt8) : Kgets := ⟨buf, 0, ⟨prompt, [], 0⟩, []⟩

/-- Reads a string off the console, when enough characters are typed (C `kgets`). -/
def kgets (maxlen : Nat) (buf : Nat → UInt8) (prompt input : List UInt8) : Option Kgets :=
  let (s, left) := kgetsLoop maxlen (Kgets.start buf prompt) input
  if left then some (s.store 0) else none

/-- The characters in the buffer. -/
def textOf (buf : Nat → UInt8) (pos : Nat) : List UInt8 := (List.range pos).map buf

section

variable {t : Terminal} {p l text : List UInt8} {buf : Nat → UInt8} {pos maxlen : Nat} {c ch : UInt8} {s : Kgets}
  {f : UInt8 → Bool}

/-- One more character. -/
lemma textOf_succ : textOf buf (pos + 1) = textOf buf pos ++ [buf pos] := by
  rw [textOf, List.range_succ, List.map_append]
  rfl

/-- The text depends on its characters only. -/
lemma textOf_congr {buf' : Nat → UInt8} (same : ∀ i < pos, buf' i = buf i) : textOf buf' pos = textOf buf pos :=
  List.map_congr_left fun i mem => same i (List.mem_range.1 mem)

/-- A printable character appears at the cursor. -/
lemma putch_printable (low : 32 ≤ c) (high : c < 127) : t.putch c = ⟨t.left ++ [c], t.right.tail, t.lines⟩ := by
  have newline : c ≠ 10 := by
    rintro rfl
    exact absurd low (by decide)
  have back : c ≠ 8 := by
    rintro rfl
    exact absurd low (by decide)
  rw [Terminal.putch, if_neg newline, if_neg back, if_pos ⟨low, high⟩]

/-- A backspace moves the cursor to the left. -/
lemma putch_back (line : t.left = l ++ [c]) : t.putch 8 = ⟨l, c :: t.right, t.lines⟩ := by
  rw [Terminal.putch, if_neg (by decide), if_pos rfl, line, List.getLast?_concat, List.dropLast_concat]

/-- A backspace takes the last character away. -/
lemma backsp_left (line : t.left = l ++ [c]) : t.backsp.left = l ∧ t.backsp.lines = t.lines := by
  rw [Terminal.backsp, putch_back line, putch_printable (c := 32) (by decide) (by decide), putch_back rfl]
  exact ⟨rfl, rfl⟩

/-- Erasing keeps the line and the buffer together. -/
lemma eraseWhile_spec (f : UInt8 → Bool) (line : t.left = p ++ textOf buf pos) :
    (eraseWhile f buf pos t).1 ≤ pos ∧ (eraseWhile f buf pos t).2.left = p ++ textOf buf (eraseWhile f buf pos t).1 ∧
      (eraseWhile f buf pos t).2.lines = t.lines := by
  induction pos generalizing t with
  | zero => exact ⟨le_refl _, line, rfl⟩
  | succ pos ih =>
    rw [textOf_succ, ← List.append_assoc] at line
    rw [eraseWhile]
    split_ifs
    · obtain ⟨back, lines⟩ := backsp_left line
      obtain ⟨le, line', lines'⟩ := ih back
      exact ⟨le.trans (Nat.le_succ pos), line', lines'.trans lines⟩
    · refine ⟨le_refl _, ?_, rfl⟩
      rw [textOf_succ, ← List.append_assoc]
      exact line

/-- Characters outside a format are sent as they are. -/
lemma vprintfLoop_plain {pf : PF (List UInt8)} {txt rest : List UInt8} (plain : ∀ c ∈ txt, c ≠ 0 ∧ c ≠ 37)
    (out : pf.inPct = false) : ∃ n, vprintfLoop (· ++ ·) pf (txt ++ rest) =
      vprintfLoop (· ++ ·) { pf with clientdata := pf.clientdata ++ txt, charcount := n } rest := by
  induction txt generalizing pf with
  | nil => exact ⟨pf.charcount, by rw [List.append_nil, List.nil_append]⟩
  | cons c txt ih =>
    obtain ⟨ne, other⟩ := plain c List.mem_cons_self
    have run : pfSend (· ++ ·) pf c = .ok (pfPrint (· ++ ·) pf [c]) := by
      rw [pfSend, if_neg ne, if_pos ⟨out, other⟩]
    obtain ⟨n, rest⟩ := @ih (pfPrint (· ++ ·) pf [c]) (fun d mem => plain d (List.mem_cons_of_mem _ mem)) out
    refine ⟨n, ?_⟩
    rw [List.cons_append, vprintfLoop_cons ne run, rest, pfPrint]
    dsimp only
    rw [List.append_assoc, List.singleton_append]

/-- Without a field nothing but the text is sent. -/
lemma pfPrintstuff_plain {pf : PF (List UInt8)} {stuff : List UInt8} (spacing : pf.spacing = (0 : Nat))
    (right : pf.rightspc = false) (fill : pf.fillchar = 32) (short : stuff.length < 2 ^ 31) :
    (pfPrintstuff (· ++ ·) pf [] [] stuff).clientdata = pf.clientdata ++ stuff := by
  have short' : ([] : List UInt8).length + stuff.length < 2 ^ 31 := by rwa [List.length_nil, Nat.zero_add]
  have out := pfPrintstuff_out spacing short'
  rw [right, fill, Nat.zero_sub] at out
  dsimp only at out
  rw [if_neg Bool.false_ne_true, if_neg (by decide)] at out
  exact out

/-- `"%s"`. -/
lemma pfSend_string {pf : PF (List UInt8)} {ap : List VaArg} {str : List UInt8} (inside : pf.inPct = true)
    (arg : pf.ap = .string (some str) :: ap) (spacing : pf.spacing = (0 : Nat)) (right : pf.rightspc = false)
    (fill : pf.fillchar = 32) (short : str.length < 2 ^ 31) :
    ∃ pf', pfSend (· ++ ·) pf 115 = .ok pf' ∧ pf'.clientdata = pf.clientdata ++ str.takeWhile (· ≠ 0) := by
  have length : (str.takeWhile (· ≠ 0)).length ≤ str.length := (List.takeWhile_prefix _).length_le
  have fetch : vaString pf = .ok (some str, { pf with ap := ap }) := by rw [vaString, arg]
  rw [pfSend, if_neg (by decide), inside, if_neg (fun h => Bool.noConfusion h.1), if_neg Bool.noConfusion,
    if_neg (by decide), if_neg (by decide), if_pos rfl, fetch, ok_bind]
  refine ⟨_, rfl, (pfEndfield_clientdata _).trans ?_⟩
  exact @pfPrintstuff_plain { pf with ap := ap } _ spacing right fill (Nat.lt_of_le_of_lt length short)

/-- The output of `"^R\n%s"`. -/
lemma output_reprint (str : List UInt8) (short : str.length < 2 ^ 31) :
    ∃ chars, output [94, 82, 10, 37, 115] [.string (some str)] = .ok ([94, 82, 10] ++ str.takeWhile (· ≠ 0), chars) := by
  obtain ⟨n, hat⟩ : ∃ n, vprintfLoop (· ++ ·) (PF.start [] [.string (some str)]) ([94, 82, 10] ++ [37, 115]) = _ :=
    vprintfLoop_plain (by simp) rfl
  obtain ⟨pf', string, out⟩ : ∃ pf', pfSend (· ++ ·)
      { PF.start [94, 82, 10] [.string (some str)] with charcount := n, inPct := true } 115 = .ok pf' ∧ _ :=
    pfSend_string rfl rfl rfl rfl rfl short
  have percent : pfSend (· ++ ·) { PF.start [94, 82, 10] [.string (some str)] with charcount := n } 37 =
      .ok { PF.start [94, 82, 10] [.string (some str)] with charcount := n, inPct := true } := rfl
  have loop : vprintfLoop (· ++ ·) (PF.start [] [.string (some str)]) [94, 82, 10, 37, 115] = .ok pf' := by
    refine hat.trans ((vprintfLoop_cons (by decide) percent).trans ?_)
    rw [vprintfLoop_cons (by decide) string, vprintfLoop]
  refine ⟨pf'.charcount, ?_⟩
  rw [output, vprintf, loop, ok_bind, out]
  rfl

/-- The session of `kprintf` sends to the terminal what `reprint` prints. -/
lemma reprint_eq_vprintf (maxlen : Nat) (buf : Nat → UInt8) (t : Terminal)
    (short : (cstring buf maxlen).length < 2 ^ 31) : ∃ chars,
    vprintf (fun t txt => txt.foldl Terminal.putch t) t [94, 82, 10, 37, 115] [.string (some (cstring buf maxlen))] =
      .ok (reprint maxlen buf t, chars) := by
  have sends : Sends (fun out => out.foldl Terminal.putch t) (· ++ ·) (fun t txt => txt.foldl Terminal.putch t) :=
    fun out txt => List.foldl_append
  obtain ⟨chars, sent⟩ := output_reprint (cstring buf maxlen) short
  have run := vprintf_map sends [] [94, 82, 10, 37, 115] [.string (some (cstring buf maxlen))]
  rw [output] at sent
  rw [sent, cstring, List.takeWhile_idem] at run
  exact ⟨chars, run⟩

/-- Characters that may be in the buffer. -/
def Printable (c : UInt8) : Prop := 32 ≤ c ∧ c < 127

/-- What is on the line in front of the text: the prompt, until a new line has been begun. -/
def Terminal.front (prompt : List UInt8) (t : Terminal) : List UInt8 := if t.lines = 0 then prompt else []

/-- What holds whenever a character is awaited, if `buf₀` was in the buffer. -/
structure KgetsInv (maxlen : Nat) (buf₀ : Nat → UInt8) (prompt : List UInt8) (s : Kgets) : Prop where
  pos_le : s.pos ≤ maxlen - 1
  printable : ∀ i < s.pos, Printable (s.buf i)
  written : ∀ i ∈ s.written, i < maxlen
  kept : ∀ i ∉ s.written, s.buf i = buf₀ i
  shows : s.term.left = s.term.front prompt ++ textOf s.buf s.pos

variable {prompt : List UInt8} {buf₀ : Nat → UInt8}

/-- A printable character is no terminator. -/
lemma Printable.ne_zero (h : Printable c) : c ≠ 0 := by
  rintro rfl
  exact absurd h.1 (by decide)

/-- Printable characters are printed as they are. -/
lemma foldl_putch (all : ∀ c ∈ text, Printable c) : (text.foldl Terminal.putch t).left = t.left ++ text ∧
    (text.foldl Terminal.putch t).lines = t.lines := by
  induction text generalizing t with
  | nil => exact ⟨(List.append_nil _).symm, rfl⟩
  | cons c text ih =>
    have first := all c List.mem_cons_self
    obtain ⟨line, lines⟩ := @ih (t.putch c) fun d mem => all d (List.mem_cons_of_mem _ mem)
    rw [List.foldl_cons, line, lines, putch_printable first.1 first.2]
    exact ⟨List.append_assoc _ [c] _, rfl⟩

/-- Nothing has been typed at the start. -/
lemma kgetsInv_start : KgetsInv maxlen buf₀ prompt (Kgets.start buf₀ prompt) :=
  ⟨Nat.zero_le _, fun i no => absurd no (Nat.not_lt_zero i), fun _ no => absurd no List.not_mem_nil, fun _ _ => rfl,
    (List.append_nil _).symm⟩

/-- Erasing characters keeps the invariant. -/
lemma KgetsInv.erase (inv : KgetsInv maxlen buf₀ prompt s) (f : UInt8 → Bool) :
    KgetsInv maxlen buf₀ prompt (s.erase f) := by
  obtain ⟨le, line, lines⟩ := eraseWhile_spec f inv.shows
  refine ⟨le.trans inv.pos_le, fun i lt => inv.printable i (Nat.lt_of_lt_of_le lt le), inv.written, inv.kept, ?_⟩
  show (eraseWhile f s.buf s.pos s.term).2.left = _
  rw [line, Terminal.front, ← lines]
  rfl

/-- A newline begins a fresh line. -/
lemma putch_newline : t.putch 10 = ⟨[], [], t.lines + 1⟩ := if_pos rfl

/-- On a new line there is nothing in front of the text. -/
lemma front_of_pos (begun : 0 < t.lines) : t.front prompt = [] := if_neg (Nat.ne_of_gt begun)

/-- What has been typed so far is printed on a new line. -/
lemma reprint_left (room : pos < maxlen) (stop : buf pos = 0) (all : ∀ i < pos, Printable (buf i)) :
    (reprint maxlen buf t).left = textOf buf pos ∧ 0 < (reprint maxlen buf t).lines := by
  have typed : ∀ c ∈ textOf buf pos, Printable c := by
    intro c mem
    obtain ⟨i, lt, rfl⟩ := List.mem_map.1 mem
    exact all i (List.mem_range.1 lt)
  rw [reprint, cstring_eq room stop fun i lt => (all i lt).ne_zero, List.foldl_append]
  obtain ⟨line, lines⟩ := @foldl_putch ([94, 82, 10].foldl Terminal.putch t) _ typed
  exact ⟨line.trans (List.nil_append _), (Nat.succ_pos t.lines).trans_eq lines.symm⟩

/-- What a byte that is stored at `pos` leaves as it is. -/
lemma KgetsInv.store (inv : KgetsInv maxlen buf₀ prompt s) (pos : 1 ≤ maxlen) (ch : UInt8) :
    (∀ i < s.pos, (s.store ch).buf i = s.buf i) ∧ (∀ i ∈ (s.store ch).written, i < maxlen) ∧
      ∀ i ∉ (s.store ch).written, (s.store ch).buf i = buf₀ i := by
  have below := inv.pos_le
  refine ⟨fun i lt => Function.update_of_ne (Nat.ne_of_lt lt) _ _, ?_, ?_⟩
  · intro i mem
    obtain rfl | before := List.mem_cons.1 mem
    · omega
    · exact inv.written i before
  · intro i out
    obtain ⟨ne, out⟩ := not_or.1 fun either => out (List.mem_cons.2 either)
    exact (Function.update_of_ne ne _ _).trans (inv.kept i out)

/-- A character that does not end the line keeps the invariant. -/
lemma KgetsInv.char (pos : 1 ≤ maxlen) (inv : KgetsInv maxlen buf₀ prompt s) (other : ¬ (ch = 10 ∨ ch = 13)) :
    KgetsInv maxlen buf₀ prompt (kgetsChar maxlen s ch).1 := by
  have line := inv.shows
  have below := inv.pos_le
  obtain ⟨same, written, kept⟩ := inv.store pos ch
  rw [kgetsChar, if_neg other]
  split_ifs with add back interrupt again eraseLine eraseWord
  · obtain ⟨low, high, room⟩ := add
    refine ⟨Nat.succ_le_of_lt room, ?_, written, kept, ?_⟩
    · intro i lt
      show Printable (Function.update s.buf s.pos ch i)
      by_cases last : i = s.pos
      · rw [last, Function.update_self]
        exact ⟨low, high⟩
      · rw [Function.update_of_ne last]
        exact inv.printable i (Nat.lt_of_le_of_ne (Nat.le_of_lt_succ lt) last)
    · have stored : (s.store ch).buf s.pos = ch := Function.update_self _ _ _
      show (s.term.putch ch).left = (s.term.putch ch).front prompt ++ textOf (s.store ch).buf (s.pos + 1)
      rw [putch_printable low high, line, textOf_succ, textOf_congr same, stored, List.append_assoc]
      rfl
  · obtain ⟨k, eq⟩ := Nat.exists_eq_succ_of_ne_zero (Nat.ne_of_gt back.2)
    rw [eq, textOf_succ, ← List.append_assoc] at line
    obtain ⟨line', lines⟩ := backsp_left line
    refine ⟨(Nat.sub_le _ _).trans below, ?_, inv.written, inv.kept, ?_⟩
    · intro i lt
      exact inv.printable i (Nat.lt_of_lt_of_le lt (Nat.sub_le _ _))
    · show s.term.backsp.left = s.term.backsp.front prompt ++ textOf s.buf (s.pos - 1)
      rw [line', Terminal.front, Terminal.front, lines, eq, Nat.succ_sub_one]
  · refine ⟨Nat.zero_le _, fun i no => absurd no (Nat.not_lt_zero i), inv.written, inv.kept, ?_⟩
    show (((s.term.putch 94).putch 67).putch 10).left = Terminal.front prompt _ ++ textOf s.buf 0
    rw [putch_newline, front_of_pos (Nat.succ_pos _)]
    rfl
  · obtain ⟨same, written, kept⟩ := inv.store pos 0
    have printable : ∀ i < s.pos, Printable ((s.store 0).buf i) := by
      intro i lt
      rw [same i lt]
      exact inv.printable i lt
    have room : s.pos < maxlen := by omega
    obtain ⟨line, begun⟩ := reprint_left (t := s.term) room (Function.update_self s.pos 0 s.buf) printable
    refine ⟨below, printable, written, kept, ?_⟩
    have front : Terminal.front prompt (reprint maxlen (Function.update s.buf s.pos 0) s.term) = [] := front_of_pos begun
    exact line.trans (congrArg (· ++ _) front).symm
  · exact inv.erase _
  · exact (inv.erase _).erase _
  · exact inv

/-- A newline ends the input. -/
lemma kgetsChar_newline (ends : ch = 10 ∨ ch = 13) :
    kgetsChar maxlen s ch = ({ s with term := ⟨[], [], s.term.lines + 1⟩ }, true) := by
  rw [kgetsChar, if_pos ends, putch_newline]

/-- More characters are processed from where the others have led. -/
lemma kgetsLoop_append {s' : Kgets} {typed more : List UInt8} (run : kgetsLoop maxlen s typed = (s', false)) :
    kgetsLoop maxlen s (typed ++ more) = kgetsLoop maxlen s' more := by
  induction typed generalizing s with
  | nil =>
    cases run
    rfl
  | cons c typed ih =>
    rw [kgetsLoop] at run
    rw [List.cons_append, kgetsLoop]
    dsimp only at run ⊢
    split_ifs at run ⊢ with left
    · cases run
    · exact ih run

/-- As long as the loop is not left, the invariant holds. -/
lemma kgetsLoop_inv {s' : Kgets} {typed : List UInt8} (pos : 1 ≤ maxlen) (inv : KgetsInv maxlen buf₀ prompt s)
    (run : kgetsLoop maxlen s typed = (s', false)) : KgetsInv maxlen buf₀ prompt s' := by
  induction typed generalizing s with
  | nil =>
    cases run
    exact inv
  | cons c typed ih =>
    rw [kgetsLoop] at run
    by_cases ends : c = 10 ∨ c = 13
    · rw [kgetsChar_newline ends] at run
      cases run
    · dsimp only at run
      split_ifs at run with left
      · cases run
      · exact ih (inv.char pos ends) run

/-- What is in the buffer when the terminating zero has been stored. -/
lemma KgetsInv.terminated (inv : KgetsInv maxlen buf₀ prompt s) (pos : 1 ≤ maxlen) :
    (s.store 0).pos ≤ maxlen - 1 ∧ (s.store 0).buf (s.store 0).pos = 0 ∧
      (∀ i < (s.store 0).pos, Printable ((s.store 0).buf i)) ∧ (∀ i ∈ (s.store 0).written, i < maxlen) ∧
      ∀ i ∉ (s.store 0).written, (s.store 0).buf i = buf₀ i := by
  obtain ⟨same, written, kept⟩ := inv.store pos 0
  refine ⟨inv.pos_le, Function.update_self _ _ _, ?_, written, kept⟩
  intro i lt
  rw [same i lt]
  exact inv.printable i lt

/-- What `kgets` returns. -/
lemma kgets_eq {typed rest : List UInt8} (run : kgetsLoop maxlen (Kgets.start buf₀ prompt) typed = (s, false))
    (left : (kgetsChar maxlen s ch).2 = true) :
    kgets maxlen buf₀ prompt (typed ++ ch :: rest) = some ((kgetsChar maxlen s ch).1.store 0) := by
  rw [kgets, kgetsLoop_append run, kgetsLoop]
  dsimp only
  rw [if_pos left]
  rfl

end

/-- While `kgets` awaits a character, and after each character that does not end the line, the terminal shows what is in
the buffer, behind the prompt as long as no new line has been begun, and on a line of its own after that; the end of the
line begins a fresh one and leaves the buffer; and what is returned is a string of printable characters, with nothing in
it after `^C`. -/
theorem kgets_shows {maxlen : Nat} (pos : 1 ≤ maxlen) (buf : Nat → UInt8) (prompt typed : List UInt8) {s : Kgets}
    (run : kgetsLoop maxlen (Kgets.start buf prompt) typed = (s, false)) :
    KgetsInv maxlen buf prompt s ∧
    ∀ ch rest, (¬ (ch = 10 ∨ ch = 13) → KgetsInv maxlen buf prompt (kgetsChar maxlen s ch).1) ∧
      (ch = 10 ∨ ch = 13 → kgetsChar maxlen s ch = ({ s with term := ⟨[], [], s.term.lines + 1⟩ }, true)) ∧
      ((kgetsChar maxlen s ch).2 = true → ∃ r, kgets maxlen buf prompt (typed ++ ch :: rest) = some r ∧
        r.pos ≤ maxlen - 1 ∧ r.buf r.pos = 0 ∧ (∀ i < r.pos, Printable (r.buf i)) ∧ (∀ i ∈ r.written, i < maxlen) ∧
        (∀ i ∉ r.written, r.buf i = buf i) ∧ (ch = 3 → r.pos = 0)) := by
  have inv := kgetsLoop_inv pos kgetsInv_start run
  refine ⟨inv, fun ch rest => ⟨fun other => inv.char pos other, kgetsChar_newline, fun left => ?_⟩⟩
  refine ⟨_, kgets_eq run left, ?_⟩
  by_cases ends : ch = 10 ∨ ch = 13
  · obtain ⟨most, stop, printable, written, kept⟩ := inv.terminated pos
    rw [kgetsChar_newline ends]
    refine ⟨most, stop, printable, written, kept, ?_⟩
    rintro rfl
    exact absurd ends (by decide)
  · obtain ⟨most, stop, printable, written, kept⟩ := (inv.char pos ends).terminated pos
    refine ⟨most, stop, printable, written, kept, ?_⟩
    rintro rfl
    rfl

/-- `"ab"` and a backspace behind a prompt, and then `^C`. -/
theorem kgets_shows_abort : ∃ s r, kgetsLoop 8 (Kgets.start (fun _ => 7) [62]) [97, 98, 8] = (s, false) ∧
    s.term.left = [62] ++ textOf s.buf s.pos ∧ s.pos = 1 ∧ (kgetsChar 8 s 3).1.term.left = [] ∧
    kgets 8 (fun _ => 7) [62] [97, 98, 8, 3] = some r ∧ r.pos = 0 ∧ r.buf 0 = 0 := by
  obtain ⟨s, run, pos, lines, begun⟩ : ∃ s, kgetsLoop 8 (Kgets.start (fun _ => 7) [62]) [97, 98, 8] = (s, false) ∧
    s.pos = 1 ∧ s.term.lines = 0 ∧ 0 < (kgetsChar 8 s 3).1.term.lines := ⟨_, rfl, rfl, rfl, by decide⟩
  obtain ⟨inv, next⟩ := kgets_shows (show 1 ≤ 8 by decide) (fun _ => 7) [62] [97, 98, 8] run
  obtain ⟨r, returned, -, stop, -, -, -, empty⟩ := (next 3 []).2.2 rfl
  have zero := empty rfl
  rw [zero] at stop
  have shows := inv.shows
  rw [Terminal.front, if_pos lines] at shows
  have fresh := ((next 3 []).1 (by decide)).shows
  rw [front_of_pos begun] at fresh
  exact ⟨s, r, run, shows, pos, fresh, returned, zero, stop⟩

/-- After `"a\n"` the line is a fresh one, and `"a"` is in the buffer. -/
theorem kgets_newline : ¬ ∀ maxlen, 1 ≤ maxlen → ∀ (buf : Nat → UInt8) (typed : List UInt8),
    let s := (kgetsLoop maxlen (Kgets.start buf []) typed).1
    s.term.left = textOf s.buf s.pos := by
  intro all
  exact absurd (all 8 (by decide) (fun _ => 0) [97, 10]) (by decide)

end PDS.Kern
