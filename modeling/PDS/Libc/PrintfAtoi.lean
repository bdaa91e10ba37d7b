import PDS.Libc.Number
import PDS.Libc.Snprintf

/-!
# Numbers that are printed and read

Port of `common/libc/stdlib/atoi.c`, and what it makes of a number that `snprintf` has printed into a field.
-/

namespace PDS.Libc
open Numeral

/-- Legal digits in order. -/
def atoiDigits : List UInt8 := [48, 49, 50, 51, 52, 53, 54, 55, 56, 57]

/-- "Process each digit": the loop of `atoi`. -/
def atoiLoop (val : UInt32) : List UInt8 → UInt32
  | [] => val
  | c :: s =>
    match atoiDigits.idxOf? c with
    | none => val
    | some digit => atoiLoop (val * 10 + UInt32.ofNat digit) s

/-- Parses a string that represents a decimal integer (C `atoi`). -/
def atoi (s : List UInt8) : Int32 :=
  -- ' ' and '\t'
  let s := s.dropWhile fun c => c == 32 || c == 9
  -- '-' and '+'
  let (neg, s) := if s.head? = some 45 then (true, s.tail) else if s.head? = some 43 then (false, s.tail) else (false, s)
  let val := atoiLoop 0 s
  if neg then (-val).toInt32 else val.toInt32

/-- The string in a buffer. -/
def cstring (buf : Nat → UInt8) (len : Nat) : List UInt8 := ((List.range len).map buf).takeWhile (· ≠ 0)

/-- A flag before the width. -/
inductive Flag where
  | minus
  | zero
deriving DecidableEq, Repr

/-- `'-'` and `'0'`. -/
def Flag.char : Flag → UInt8
  | .minus => 45
  | .zero => 48

/-- `"%<flags><width>d"`. -/
def fieldFormat (flags : List Flag) (width : Nat) : List UInt8 :=
  37 :: (flags.map Flag.char ++ (if width = 0 then [] else numeralText 10 width) ++ [100])

/-- The sign of a number. -/
def signText (n : Int) : List UInt8 := if n < 0 then [45] else []

/-- A number without a field: its sign and its digits. -/
def decimalText (n : Int) : List UInt8 := signText n ++ numeralText 10 n.natAbs

/-- A number in a field. -/
def fieldText (minus zero : Bool) (width : Nat) (n : Int) : List UInt8 :=
  let fill := List.replicate (width - (decimalText n).length) (if zero then 48 else 32)
  if minus then decimalText n ++ fill
  else if zero then signText n ++ fill ++ numeralText 10 n.natAbs
  else fill ++ decimalText n

section

/-- The state behind the flags and a part of the width. -/
def inField (ap : List VaArg) (minus zero : Bool) (spacing : Int) : PF (List UInt8) :=
  ⟨[], ap, 0, true, .intsz, 0, 0, spacing, minus, if zero then 48 else 32, 0, false, false⟩

variable {ap : List VaArg} {minus zero : Bool} {flags : List Flag} {rest out : List UInt8} {v width d k : Nat}
  {ds : List Nat}

/-- One character of the format. -/
lemma vprintfLoop_cons {σ : Type} {send : σ → List UInt8 → σ} {pf pf' : PF σ} {c : UInt8} {format : List UInt8}
    (ne : c ≠ 0) (run : pfSend send pf c = .ok pf') :
    vprintfLoop send pf (c :: format) = vprintfLoop send pf' format := by
  rw [vprintfLoop, if_neg ne, run, ok_bind]

/-- The flags of a field are noted one after the other. -/
lemma flags_loop : vprintfLoop (· ++ ·) (inField ap minus zero 0) (flags.map Flag.char ++ rest) =
    vprintfLoop (· ++ ·) (inField ap (minus || .minus ∈ flags) (zero || .zero ∈ flags) 0) rest := by
  induction flags generalizing minus zero with
  | nil => simp only [List.map_nil, List.nil_append, List.not_mem_nil, decide_false, Bool.or_false]
  | cons flag flags ih =>
    rw [List.map_cons, List.cons_append]
    cases flag with
    | minus =>
      have run : pfSend (· ++ ·) (inField ap minus zero 0) 45 = .ok (inField ap true zero 0) := rfl
      rw [Flag.char, vprintfLoop_cons (by decide) run, ih]
      simp
    | zero =>
      have run : pfSend (· ++ ·) (inField ap minus zero 0) 48 = .ok (inField ap minus true 0) := rfl
      rw [Flag.char, vprintfLoop_cons (by decide) run, ih]
      simp

/-- The code of a digit. -/
lemma toNat_digitChar (lt : d < 10) : (digitChar d).toNat = 48 + d := by
  have all : ∀ d < 10, (digitChar d).toNat = 48 + d := by decide
  exact all d lt

/-- A digit is none of the characters before `'0'`. -/
lemma digitChar_ne {c : UInt8} (lt : d < 10) (other : c.toNat < 48) : digitChar d ≠ c := by
  intro eq
  have code := toNat_digitChar lt
  rw [eq] at code
  omega

/-- A digit of the width. -/
lemma pfModifier_digit (lt : d < 10) (pos : 0 < v ∨ 0 < d) (small : v * 10 + d < 2 ^ 31) :
    pfModifier (inField ap minus zero v) (digitChar d) = .ok (inField ap minus zero ((v * 10 + d : Nat) : Int)) := by
  have code := toNat_digitChar lt
  have letter : digitChar d ≠ 108 := by
    intro eq
    rw [eq] at code
    have l : (108 : UInt8).toNat = 108 := rfl
    omega
  have spacing : (inField ap minus zero v).spacing = v := rfl
  rw [pfModifier, if_neg (digitChar_ne lt (by decide)), if_neg (digitChar_ne lt (by decide)), if_neg letter]
  by_cases first : d = 0
  · have given : (v : Int) > 0 := by omega
    have eq : toInt ((v : Int) * 10) = ((v * 10 + d : Nat) : Int) := by
      rw [toInt_of_lt (by omega) (by omega)]
      omega
    rw [first] at eq ⊢
    rw [if_pos (show digitChar 0 = 48 from rfl), spacing, if_pos given, eq]
    rfl
  · have low : digitChar d > 48 := by
      rw [gt_iff_lt, UInt8.lt_iff_toNat_lt, code]
      show 48 < 48 + d
      omega
    have high : digitChar d ≤ 57 := by
      rw [UInt8.le_iff_toNat_le, code]
      show 48 + d ≤ 57
      omega
    have eq : toInt ((v : Int) * 10 + ((digitChar d).toNat - 48)) = ((v * 10 + d : Nat) : Int) := by
      rw [code, toInt_of_lt (by omega) (by omega)]
      omega
    rw [if_neg (UInt8.ne_of_lt low).symm, if_pos ⟨low, high⟩, spacing, eq]
    rfl

/-- A digit is a modifier. -/
lemma digitChar_mem (lt : d < 10) : digitChar d ∈ modifiers := by
  have all : ∀ d < 10, digitChar d ∈ modifiers := by decide
  exact all d lt

/-- The digits of the width. -/
lemma width_loop (digit : ∀ d ∈ ds, d < 10) (pos : 0 < v ∨ ds.head? ≠ some 0) (small : eval 10 v ds < 2 ^ 31) :
    vprintfLoop (· ++ ·) (inField ap minus zero v) (ds.map digitChar ++ rest) =
      vprintfLoop (· ++ ·) (inField ap minus zero (eval 10 v ds)) rest := by
  induction ds generalizing v with
  | nil => rfl
  | cons d ds ih =>
    have lt := digit d List.mem_cons_self
    have pos' : 0 < v ∨ 0 < d := by
      refine pos.imp_right fun ne => Nat.pos_of_ne_zero ?_
      rintro rfl
      exact ne rfl
    have le : v * 10 + d ≤ eval 10 v (d :: ds) := le_eval (by decide)
    have run : pfSend (· ++ ·) (inField ap minus zero v) (digitChar d) =
        .ok (inField ap minus zero ((v * 10 + d : Nat) : Int)) := by
      have inside : (inField ap minus zero v).inPct ≠ false := Bool.noConfusion
      rw [pfSend, if_neg (digitChar_ne lt (by decide)), if_neg (fun h => inside h.1), if_neg inside,
        if_pos (digitChar_mem lt)]
      exact pfModifier_digit lt pos' (by omega)
    rw [List.map_cons, List.cons_append, vprintfLoop_cons (digitChar_ne lt (by decide)) run]
    exact ih (fun d' mem => digit d' (List.mem_cons_of_mem _ mem)) (.inl (by omega)) small

/-- The characters `txt` have been sent, and the options of the field are as they were. -/
structure Printed (pf pf' : PF (List UInt8)) (txt : List UInt8) : Prop where
  out : pf'.clientdata = pf.clientdata ++ txt
  rightspc : pf'.rightspc = pf.rightspc
  fillchar : pf'.fillchar = pf.fillchar

variable {pf pf' pf'' : PF (List UInt8)} {txt txt' : List UInt8}

/-- One text is printed after the other. -/
lemma Printed.trans (h : Printed pf pf' txt) (h' : Printed pf' pf'' txt') : Printed pf pf'' (txt ++ txt') := by
  refine ⟨?_, h'.rightspc.trans h.rightspc, h'.fillchar.trans h.fillchar⟩
  rw [h'.out, h.out, List.append_assoc]

/-- A text is printed. -/
lemma pfPrint_printed (txt : List UInt8) : Printed pf (pfPrint (· ++ ·) pf txt) txt := ⟨rfl, rfl, rfl⟩

/-- Fill characters are printed. -/
lemma pfFill_printed : Printed pf (pfFill (· ++ ·) pf k) (List.replicate k pf.fillchar) := by
  induction k generalizing pf with
  | zero => exact ⟨(List.append_nil _).symm, rfl, rfl⟩
  | succ k ih =>
    have first : Printed pf (pfPrint (· ++ ·) pf [pf.fillchar]) [pf.fillchar] := pfPrint_printed _
    exact first.trans ih

/-- Padding is printed on one side. -/
lemma pfPad_printed (c : Bool) :
    Printed pf (pfPad (· ++ ·) pf c k) (if c then List.replicate k pf.fillchar else []) := by
  cases c with
  | true => exact pfFill_printed
  | false => exact ⟨(List.append_nil _).symm, rfl, rfl⟩

/-- What is printed into a field. -/
lemma pfPrintstuff_out {pre stuff : List UInt8} (spacing : pf.spacing = width)
    (short : pre.length + stuff.length < 2 ^ 31) :
    let fill := List.replicate (width - (pre.length + stuff.length)) pf.fillchar
    (pfPrintstuff (· ++ ·) pf pre [] stuff).clientdata = pf.clientdata ++
      if pf.rightspc then pre ++ stuff ++ fill
      else if pf.fillchar = 48 then pre ++ fill ++ stuff
      else fill ++ pre ++ stuff := by
  have count : toInt ((pre.length : Int) + ([] : List UInt8).length + stuff.length) =
      ((pre.length + stuff.length : Nat) : Int) := by
    rw [List.length_nil, Int.natCast_zero, Int.add_zero, ← Int.natCast_add]
    exact toInt_of_lt (by omega) (by omega)
  have spc : (if (width : Int) > ((pre.length + stuff.length : Nat) : Int)
      then (width : Int) - ((pre.length + stuff.length : Nat) : Int) else 0).toNat =
      width - (pre.length + stuff.length) := by
    split_ifs <;> omega
  rw [pfPrintstuff]
  dsimp only
  rw [count, spacing, spc]
  generalize width - (pre.length + stuff.length) = n
  have left : Printed pf _ _ := pfPad_printed (k := n) (n > 0 && !pf.rightspc && pf.fillchar != 48)
  have front := (left.trans (pfPrint_printed pre)).trans (pfPrint_printed [])
  rw [front.rightspc, front.fillchar]
  have zeros := front.trans (pfPad_printed (k := n) (n > 0 && !pf.rightspc && pf.fillchar == 48))
  have number := zeros.trans (pfPrint_printed stuff)
  rw [number.rightspc]
  have whole := number.trans (pfPad_printed (k := n) (n > 0 && pf.rightspc))
  rw [whole.out, front.fillchar, number.fillchar]
  cases n with
  | zero => simp
  | succ n =>
    cases pf.rightspc with
    | true => simp
    | false =>
      by_cases fill : pf.fillchar = 48
      · simp [fill]
      · simp [fill]

/-- The digits of an `int` are found. -/
lemma numberText_int (n : Int32) : numberText 10 n.toInt.natAbs = .ok (numeralText 10 n.toInt.natAbs) := by
  have most := n.toInt_lt
  have least := n.le_toInt
  have power : 2 ^ 32 < 10 ^ (numberBufSize - 1) := by decide
  exact numberText_eq (by decide) (by decide) (by omega)

/-- An `int` has at most ten digits. -/
lemma length_numeralText_int (n : Int32) : (numeralText 10 n.toInt.natAbs).length ≤ 10 := by
  have most := n.toInt_lt
  have least := n.le_toInt
  rw [numeralText, List.length_map, length_numeral_le (by decide) (by decide)]
  omega

/-- A sign is at most one character. -/
lemma length_signText (n : Int) : (signText n).length ≤ 1 := by
  rw [signText]
  split_ifs <;> decide

/-- The sign and the absolute value. -/
lemma pfSignednum_eq (n : Int) :
    pfSignednum pf n = { pf with sign := if n < 0 then -1 else pf.sign, num := n.natAbs } := by
  rw [pfSignednum]
  split_ifs with neg
  · have abs : (-n).toNat = n.natAbs := by omega
    rw [abs]
  · have abs : n.toNat = n.natAbs := by omega
    rw [abs]

/-- The number and its sign have been fetched. -/
def fetched (minus zero : Bool) (width : Nat) (n : Int) : PF (List UInt8) :=
  { inField [] minus zero width with sign := if n < 0 then -1 else 0, num := n.natAbs, base := 10 }

/-- The sign that is printed. -/
lemma fetched_sign (n : Int) : (if (fetched minus zero width n).sign ≠ 0 then [45] else []) = signText n := by
  rw [fetched, signText]
  by_cases neg : n < 0
  · rw [if_pos neg, if_pos neg]
    rfl
  · rw [if_neg neg, if_neg neg]
    rfl

/-- The field of a number. -/
lemma fetched_out (n : Int32) :
    (pfPrintstuff (· ++ ·) (fetched minus zero width n.toInt) (signText n.toInt) []
      (numeralText 10 n.toInt.natAbs)).clientdata = fieldText minus zero width n.toInt := by
  have digits := length_numeralText_int n
  have sign := length_signText n.toInt
  have fill : (fetched minus zero width n.toInt).fillchar = if zero then 48 else 32 := rfl
  have right : (fetched minus zero width n.toInt).rightspc = minus := rfl
  have empty : (fetched minus zero width n.toInt).clientdata = [] := rfl
  have spacing : (fetched minus zero width n.toInt).spacing = width := rfl
  rw [pfPrintstuff_out spacing (by omega), fill, right, empty, List.nil_append, fieldText, decimalText,
    List.length_append]
  cases minus with
  | true => rfl
  | false =>
    cases zero with
    | true => rfl
    | false => exact List.append_assoc _ _ _

/-- The end of a field prints nothing. -/
lemma pfEndfield_clientdata (pf : PF (List UInt8)) : (pfEndfield pf).clientdata = pf.clientdata := rfl

variable (minus zero width) in
/-- What is printed for the number. -/
lemma pfSend_number (n : Int32) : ∃ pf',
    pfSend (· ++ ·) (inField [.word n.toUInt32] minus zero width) 100 = .ok pf' ∧
      pf'.clientdata = fieldText minus zero width n.toInt := by
  have inside : (inField [.word n.toUInt32] minus zero width).inPct ≠ false := Bool.noConfusion
  have fetch : pfGetnum (inField [.word n.toUInt32] minus zero width) 100 =
      .ok (pfSignednum (inField [] minus zero width) n.toInt) := rfl
  have base : pfSetbase (pfSignednum (inField [] minus zero width) n.toInt) 100 = fetched minus zero width n.toInt := by
    rw [pfSignednum_eq]
    rfl
  have print : pfPrintnum (· ++ ·) (fetched minus zero width n.toInt) = .ok (pfPrintstuff (· ++ ·)
      (fetched minus zero width n.toInt) (signText n.toInt) [] (numeralText 10 n.toInt.natAbs)) := by
    have text : numberText (fetched minus zero width n.toInt).base (fetched minus zero width n.toInt).num =
        .ok (numeralText 10 n.toInt.natAbs) := numberText_int n
    rw [pfPrintnum, text, ok_bind, fetched_sign]
    rfl
  rw [pfSend, if_neg (by decide), if_neg (fun h => inside h.1), if_neg inside, if_neg (by decide), if_pos (by decide),
    fetch, ok_bind, base, print, ok_bind]
  exact ⟨_, rfl, (pfEndfield_clientdata _).trans (fetched_out n)⟩

variable (flags) in
/-- What is printed for a number in a field. -/
lemma output_field (n : Int32) (small : width < 2 ^ 31) :
    ∃ chars, output (fieldFormat flags width) [.word n.toUInt32] =
      .ok (fieldText (.minus ∈ flags) (.zero ∈ flags) width n.toInt, chars) := by
  have start : vprintfLoop (· ++ ·) (PF.start [] [.word n.toUInt32]) (fieldFormat flags width) =
      vprintfLoop (· ++ ·) (inField [.word n.toUInt32] (.minus ∈ flags) (.zero ∈ flags) width) [100] := by
    have percent : pfSend (· ++ ·) (PF.start ([] : List UInt8) [.word n.toUInt32]) 37 =
        .ok (inField [.word n.toUInt32] false false 0) := rfl
    rw [fieldFormat, vprintfLoop_cons (by decide) percent, List.append_assoc, flags_loop, Bool.false_or, Bool.false_or]
    by_cases none : width = 0
    · rw [if_pos none, none, List.nil_append]
      rfl
    · have value : eval 10 0 (numeral 10 width) = width := eval_numeral
      have first : (numeral 10 width).head? ≠ some 0 := by
        intro head
        obtain ⟨rest, eq⟩ := List.head?_eq_some_iff.1 head
        exact head_numeral (Nat.pos_of_ne_zero none) eq
      have digits : vprintfLoop (· ++ ·) (inField [.word n.toUInt32] (.minus ∈ flags) (.zero ∈ flags) (0 : Nat))
          (numeralText 10 width ++ [100]) = _ :=
        width_loop (fun d mem => numeral_lt (by decide) mem) (.inr first) (by rw [value]; exact small)
      rw [value] at digits
      rw [if_neg none]
      exact digits
  obtain ⟨pf', last, out⟩ := pfSend_number (.minus ∈ flags) (.zero ∈ flags) width n
  refine ⟨pf'.charcount, ?_⟩
  rw [output, vprintf, start, vprintfLoop_cons (by decide) last, vprintfLoop, ok_bind, out]

/-- `atoi` recognises a digit. -/
lemma atoiDigits_idxOf (lt : d < 10) : atoiDigits.idxOf? (digitChar d) = some d := by
  have all : ∀ d < 10, atoiDigits.idxOf? (digitChar d) = some d := by decide
  exact all d lt

/-- `atoi` takes the value of digits. -/
lemma atoiLoop_digits (digit : ∀ d ∈ ds, d < 10) :
    atoiLoop (UInt32.ofNat v) (ds.map digitChar ++ rest) = atoiLoop (UInt32.ofNat (eval 10 v ds)) rest := by
  induction ds generalizing v with
  | nil => rfl
  | cons d ds ih =>
    have next : UInt32.ofNat v * 10 + UInt32.ofNat d = UInt32.ofNat (v * 10 + d) := by
      rw [UInt32.ofNat_add, UInt32.ofNat_mul]
      rfl
    rw [List.map_cons, List.cons_append, atoiLoop, atoiDigits_idxOf (digit d List.mem_cons_self)]
    dsimp only
    rw [next]
    exact ih fun d' mem => digit d' (List.mem_cons_of_mem _ mem)

/-- `atoi` stops at a space. -/
lemma atoiLoop_spaces {val : UInt32} : atoiLoop val (List.replicate k 32) = val := by
  cases k with
  | zero => rfl
  | succ k =>
    have blank : atoiDigits.idxOf? 32 = none := by decide
    rw [List.replicate_succ, atoiLoop, blank]

variable (k rest) in
/-- A number behind spaces, and with something behind it. -/
lemma atoi_text (n : Int) (digit : ∀ d ∈ ds, d < 10) (some_ : ds ≠ []) :
    atoi (List.replicate k 32 ++ (signText n ++ (ds.map digitChar ++ rest))) =
      (if n < 0 then -atoiLoop (UInt32.ofNat (eval 10 0 ds)) rest
        else atoiLoop (UInt32.ofNat (eval 10 0 ds)) rest).toInt32 := by
  have loop : atoiLoop 0 (ds.map digitChar ++ rest) = atoiLoop (UInt32.ofNat (eval 10 0 ds)) rest :=
    atoiLoop_digits digit
  have blanks : ∀ c ∈ List.replicate k (32 : UInt8), (c == 32 || c == 9) = true := by
    intro c mem
    rw [List.eq_of_mem_replicate mem]
    rfl
  rw [atoi, List.dropWhile_append_of_pos blanks]
  dsimp only
  by_cases neg : n < 0
  · rw [signText, if_pos neg, if_pos neg, List.singleton_append, List.dropWhile_cons_of_neg (by decide), List.head?_cons,
      if_pos rfl, List.tail_cons]
    dsimp only
    rw [if_pos rfl, loop]
  · obtain ⟨d, ds, rfl⟩ := List.exists_cons_of_ne_nil some_
    have lt := digit d List.mem_cons_self
    have other {c : UInt8} (low : c.toNat < 48) : ¬ some (digitChar d) = some c := by
      intro eq
      exact digitChar_ne lt low (Option.some.inj eq)
    have stop (s : List UInt8) : (digitChar d :: s).dropWhile (fun c => c == 32 || c == 9) = digitChar d :: s := by
      refine List.dropWhile_cons_of_neg ?_
      rw [Bool.or_eq_true, beq_iff_eq, beq_iff_eq]
      exact not_or.2 ⟨digitChar_ne lt (by decide), digitChar_ne lt (by decide)⟩
    rw [List.map_cons, List.cons_append] at loop
    rw [signText, if_neg neg, if_neg neg, List.nil_append, List.map_cons, List.cons_append, stop,
      List.head?_cons, if_neg (other (by decide)), if_neg (other (by decide))]
    dsimp only
    rw [if_neg Bool.false_ne_true, loop]

/-- How many zeros come behind a number in its field. -/
def zerosBehind (minus zero : Bool) (width : Nat) (n : Int) : Nat :=
  if minus && zero then width - (decimalText n).length else 0

/-- The sign is that of the result, also where the number wraps around. -/
lemma toInt32_sign (n : Int) (v : Nat) :
    (if n < 0 then -UInt32.ofNat v else UInt32.ofNat v).toInt32 = Int32.ofInt (if n < 0 then -(v : Int) else v) := by
  split_ifs
  · rw [UInt32.toInt32_neg, UInt32.toInt32_ofNat', Int32.ofInt_neg]
    rfl
  · rw [UInt32.toInt32_ofNat']
    rfl

/-- A number with zeros behind it, from its sign and its digits. -/
lemma sign_natAbs_mul (n : Int) (k : Nat) :
    (if n < 0 then -((n.natAbs * 10 ^ k : Nat) : Int) else (n.natAbs * 10 ^ k : Nat)) = n * 10 ^ k := by
  have power : (((10 ^ k : Nat)) : Int) = 10 ^ k := Int.natCast_pow 10 k
  split_ifs with neg
  · rw [Int.natCast_mul, power, ← Int.neg_mul]
    congr 1
    omega
  · rw [Int.natCast_mul, power]
    congr 1
    omega

/-- What is read from the field: zeros behind the number are part of it. -/
lemma atoi_field (n : Int) :
    atoi (fieldText minus zero width n) = Int32.ofInt (n * 10 ^ zerosBehind minus zero width n) := by
  have digit : ∀ d ∈ numeral 10 n.natAbs, d < 10 := fun d mem => numeral_lt (by decide) mem
  have some_ : numeral 10 n.natAbs ≠ [] := List.ne_nil_of_length_pos length_numeral_pos
  have value : eval 10 0 (numeral 10 n.natAbs) = n.natAbs := eval_numeral
  have whole := sign_natAbs_mul n 0
  rw [Nat.pow_zero, Nat.mul_one] at whole
  rw [fieldText, zerosBehind, decimalText, numeralText]
  generalize width - (signText n ++ (numeral 10 n.natAbs).map digitChar).length = k
  cases minus with
  | true =>
    cases zero with
    | true =>
      have zeros : ∀ d ∈ numeral 10 n.natAbs ++ List.replicate k 0, d < 10 := by
        intro d mem
        obtain mem | mem := List.mem_append.1 mem
        · exact digit d mem
        · rw [List.eq_of_mem_replicate mem]
          decide
      have text := atoi_text [] 0 n zeros (List.append_ne_nil_of_left_ne_nil some_ _)
      rw [eval_append, value, eval_zeros, atoiLoop, toInt32_sign, sign_natAbs_mul, List.map_append,
        List.map_replicate, List.append_nil, List.replicate_zero, List.nil_append, ← List.append_assoc] at text
      exact text
    | false =>
      have text := atoi_text (List.replicate k 32) 0 n digit some_
      rw [value, atoiLoop_spaces, toInt32_sign, whole, List.replicate_zero, List.nil_append, ← List.append_assoc] at text
      exact text
  | false =>
    cases zero with
    | true =>
      have zeros : ∀ d ∈ List.replicate k 0 ++ numeral 10 n.natAbs, d < 10 := by
        intro d mem
        obtain mem | mem := List.mem_append.1 mem
        · rw [List.eq_of_mem_replicate mem]
          decide
        · exact digit d mem
      have text := atoi_text [] 0 n zeros (List.append_ne_nil_of_right_ne_nil _ some_)
      rw [eval_append, eval_zeros, Nat.zero_mul, value, atoiLoop, toInt32_sign, whole, List.map_append, List.map_replicate,
        List.append_nil, List.replicate_zero, List.nil_append, ← List.append_assoc] at text
      exact text
    | false =>
      have text := atoi_text [] k n digit some_
      rw [value, atoiLoop, toInt32_sign, whole, List.append_nil] at text
      exact text

/-- A multiple by `10 ^ k` is congruent to the number modulo a power of two only if that divides the number. -/
lemma dvd_of_zeros {w : Nat} {n : Int} (pos : k ≠ 0) (same : (n * 10 ^ k) % 2 ^ w = n % 2 ^ w) :
    (2 : Int) ^ w ∣ n := by
  obtain ⟨j, rfl⟩ := Nat.exists_eq_succ_of_ne_zero pos
  have dvd : (2 : Int) ^ w ∣ n * (10 ^ (j + 1) - 1) := by
    rw [Int.mul_sub, Int.mul_one]
    exact Int.ModEq.dvd same.symm
  have odd : IsCoprime (2 : Int) (10 ^ (j + 1) - 1) := ⟨5 * 10 ^ j, -1, by rw [pow_succ]; ring⟩
  exact odd.pow_left.dvd_of_dvd_mul_right dvd

/-- Zeros behind a number make it another one, as an `int` too. -/
lemma ofInt_zeros_iff (n : Int32) : Int32.ofInt (n.toInt * 10 ^ k) = n ↔ k = 0 ∨ n = 0 := by
  have most := n.toInt_lt
  have least := n.le_toInt
  constructor
  · intro eq
    by_contra none
    obtain ⟨pos, nonzero⟩ := not_or.1 none
    have size : Int32.size = 2 ^ 32 := rfl
    have eq := congrArg (fun m => m.toInt % ((2 ^ 32 : Nat) : Int)) eq
    rw [Int32.toInt_ofInt, size, Int.bmod_emod, Int.natCast_pow] at eq
    obtain ⟨m, multiple⟩ := dvd_of_zeros pos eq
    have zero : n.toInt = 0 := by omega
    exact nonzero (Int32.toInt_inj.1 (zero.trans Int32.toInt_zero.symm))
  · rintro (rfl | rfl)
    · rw [pow_zero, Int.mul_one, Int32.ofInt_toInt]
    · rw [Int32.toInt_zero, Int.zero_mul]
      rfl

variable (minus zero width) in
/-- A field is as long as its text or its width. -/
lemma length_fieldText (n : Int) : (fieldText minus zero width n).length = max width (decimalText n).length := by
  have length : (decimalText n).length = (signText n).length + (numeralText 10 n.natAbs).length := List.length_append
  rw [fieldText]
  split_ifs <;> simp only [List.length_append, List.length_replicate] <;> omega

/-- Digits are no terminators. -/
lemma numeralText_ne_zero {num : Nat} : (0 : UInt8) ∉ numeralText 10 num := by
  intro mem
  obtain ⟨d, digit, eq⟩ := List.mem_map.1 mem
  have lt : d < 10 := numeral_lt (by decide) digit
  exact digitChar_ne lt (by decide) eq

/-- Nor is anything in a field. -/
lemma fieldText_ne_zero (n : Int) : (0 : UInt8) ∉ fieldText minus zero width n := by
  have digits : (0 : UInt8) ∉ numeralText 10 n.natAbs := numeralText_ne_zero
  have sign : (0 : UInt8) ∉ signText n := by
    rw [signText]
    split_ifs <;> decide
  have fill (k : Nat) (c : UInt8) (solid : c ≠ 0) : (0 : UInt8) ∉ List.replicate k c := by
    intro mem
    exact solid (List.eq_of_mem_replicate mem).symm
  have zeros (k : Nat) := fill k 48 (by decide)
  have spaces (k : Nat) := fill k 32 (by decide)
  rw [fieldText, decimalText]
  split_ifs <;> simp only [List.mem_append, sign, digits, zeros, spaces, or_self, not_false_iff]

/-- The string in a buffer ends at the first zero. -/
lemma cstring_eq {buf : Nat → UInt8} {n len : Nat} (lt : n < len) (stop : buf n = 0) (solid : ∀ i < n, buf i ≠ 0) :
    cstring buf len = (List.range n).map buf := by
  obtain ⟨k, rfl⟩ := Nat.exists_eq_add_of_lt lt
  have all : ∀ c ∈ (List.range n).map buf, decide (c ≠ 0) = true := by
    intro c mem
    obtain ⟨i, inside, rfl⟩ := List.mem_map.1 mem
    exact decide_eq_true (solid i (List.mem_range.1 inside))
  have split : List.range (n + k + 1) = List.range n ++ (n :: (List.range k).map fun i => n + (i + 1)) := by
    rw [Nat.add_assoc, List.range_add, List.range_succ_eq_map, List.map_cons, List.map_map]
    rfl
  rw [cstring, split, List.map_append, List.takeWhile_append_of_pos all, List.map_cons, stop,
    List.takeWhile_cons_of_neg (by decide), List.append_nil]

/-- The string in a buffer that is large enough is the output. -/
lemma cstring_leftIn {buf : Nat → UInt8} {len : Nat} (enough : out.length < len) (solid : (0 : UInt8) ∉ out) :
    cstring (leftIn buf len out) len = out := by
  have fits : min out.length (len - 1) = out.length := by omega
  have text : (List.range (min out.length (len - 1))).map (leftIn buf len out) = _ := leftIn_map
  rw [fits, List.take_of_length_le (by omega)] at text
  have stop : leftIn buf len out (min out.length (len - 1)) = 0 := leftIn_end (by omega)
  rw [fits] at stop
  have nonzero : ∀ i < out.length, leftIn buf len out i ≠ 0 := by
    intro i lt zero
    have mem : leftIn buf len out i ∈ (List.range out.length).map (leftIn buf len out) :=
      List.mem_map_of_mem (List.mem_range.2 lt)
    rw [zero, text] at mem
    exact solid mem
  rw [cstring_eq enough stop nonzero, text]

/-- `atoi` reads a number that has been printed into a field, but for one kind of field: with both flags the field is
filled behind the number, with zeros. -/
theorem atoi_snprintf_iff (n : Int32) (flags : List Flag) {width : Nat} (small : width < 2 ^ 16) (buf : Nat → UInt8)
    {len : Nat} (enough : max width (decimalText n.toInt).length < len) :
    ∃ buf' chars, snprintf buf len (fieldFormat flags width) [.word n.toUInt32] = .ok (buf', chars) ∧
      (atoi (cstring buf' len) = n ↔
        ¬ (.minus ∈ flags ∧ .zero ∈ flags ∧ (decimalText n.toInt).length < width ∧ n ≠ 0)) := by
  have digits := length_numeralText_int n
  have sign := length_signText n.toInt
  have length : (decimalText n.toInt).length = _ := List.length_append
  obtain ⟨chars, sends⟩ := output_field flags n (show width < 2 ^ 31 by omega)
  have short := length_fieldText (.minus ∈ flags) (.zero ∈ flags) width n.toInt
  refine ⟨_, _, vsnprintf_of_output sends (by omega) buf len, ?_⟩
  rw [cstring_leftIn (by omega) (fieldText_ne_zero _), atoi_field, ofInt_zeros_iff, zerosBehind]
  split_ifs with both
  · rw [Bool.and_eq_true, decide_eq_true_iff, decide_eq_true_iff] at both
    constructor
    · rintro (none | zero) ⟨-, -, wide, nonzero⟩
      · omega
      · exact nonzero zero
    · intro other
      by_contra neither
      obtain ⟨some_, nonzero⟩ := not_or.1 neither
      exact other ⟨both.1, both.2, by omega, nonzero⟩
  · rw [Bool.and_eq_true, decide_eq_true_iff, decide_eq_true_iff] at both
    exact iff_of_true (.inl rfl) fun kind => both ⟨kind.1, kind.2.1⟩

/-- `"%04d"` for `-5`. -/
theorem atoi_snprintf_iff_four : ∃ buf' chars,
    snprintf (fun _ => 7) 16 [37, 48, 52, 100] [.word (-5)] = .ok (buf', chars) ∧ atoi (cstring buf' 16) = -5 := by
  have enough : max 4 (decimalText (-5 : Int32).toInt).length < 16 := by decide
  obtain ⟨buf', chars, run, read⟩ := atoi_snprintf_iff (-5) [.zero] (show 4 < 2 ^ 16 by decide) (fun _ => 7) enough
  exact ⟨buf', chars, run, read.2 fun kind => absurd kind.1 (by decide)⟩

/-- `"%-04d"` for `5` is `"5000"`. -/
theorem atoi_snprintf_five_thousand : ¬ ∀ (n : Int32) (flags : List Flag) (width : Nat), width < 2 ^ 16 →
    ∀ (buf : Nat → UInt8) (len : Nat), max width (decimalText n.toInt).length < len →
      ∃ buf' chars, snprintf buf len (fieldFormat flags width) [.word n.toUInt32] = .ok (buf', chars) ∧
        atoi (cstring buf' len) = n := by
  intro all
  obtain ⟨buf', chars, run, read⟩ := all 5 [.minus, .zero] 4 (by decide) (fun _ => 7) 16 (by decide)
  have sends : output (fieldFormat [.minus, .zero] 4) [.word (5 : Int32).toUInt32] = .ok ([53, 48, 48, 48], 4) := by
    decide
  rw [snprintf, vsnprintf_of_output sends (by decide)] at run
  cases run
  rw [cstring_leftIn (by decide) (by decide)] at read
  revert read
  decide

end

end PDS.Libc
