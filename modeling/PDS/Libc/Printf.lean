import PDS.Lib.Fallible

/-!
# The guts of printf

Port of `common/libc/printf/__printf.c`, with `USE_LONGLONG`, for the 32-bit machine. The callback that the output goes
to is a parameter, with a state that stands for its `clientdata`. Strings are the characters before the terminating
zero. `int` arithmetic wraps around.

Arguments have the types that `va_arg` can fetch: an `int`, a `long` and a pointer are one word. To fetch an argument
that is not there, or that is of another kind, is undefined.
-/

namespace PDS.Libc

/-- How printing can go wrong. -/
inductive PrintfStop where
  /-- a failed `assert(cond)` -/
  | assertion (cond : String)
  /-- `va_arg` for an argument that is not there -/
  | vaArg
  /-- an access outside the buffer for a number -/
  | outOfBuffer
  /-- a loop that outlives its fuel -/
  | spin
deriving DecidableEq, Repr

/-- An argument. -/
inductive VaArg where
  /-- `int`, `unsigned int`, `long`, `unsigned long`, `void *` -/
  | word (v : UInt32)
  /-- `long long`, `unsigned long long` -/
  | dword (v : UInt64)
  /-- `const char *` -/
  | string (s : Option (List UInt8))

/-- A value that is put into an `int`. -/
def toInt (x : Int) : Int := Int.bmod x (2 ^ 32)

/-- The size of the integer argument to retrieve. -/
inductive IntSize where
  | intsz
  | longsz
  | llongsz
deriving DecidableEq, Repr

/-- Size of the buffer for a number (C `NUMBER_BUF_SIZE`). -/
def numberBufSize : Nat := 8 * 8 / 3 + 2

/-- Structure holding the state for printf (C `PF`). -/
@[ext]
structure PF (σ : Type) where
  clientdata : σ
  ap : List VaArg
  charcount : Int
  inPct : Bool
  size : IntSize
  num : Nat
  sign : Int
  spacing : Int
  rightspc : Bool
  fillchar : UInt8
  base : Nat
  baseprefix : Bool
  altformat : Bool

section

variable {σ : Type}

/-- Resets the state for the next field (C `__pf_endfield`). -/
def pfEndfield (pf : PF σ) : PF σ :=
  { pf with
    inPct := false
    size := .intsz
    num := 0
    sign := 0
    spacing := 0
    rightspc := false
    fillchar := 32
    base := 0
    baseprefix := false
    altformat := false }

/-- Processes modifier chars (C `__pf_modifier`). -/
def pfModifier (pf : PF σ) (ch : UInt8) : Except PrintfStop (PF σ) :=
  -- '#'
  if ch = 35 then .ok { pf with altformat := true }
  -- '-'
  else if ch = 45 then .ok { pf with rightspc := true }
  -- 'l'
  else if ch = 108 then
    if pf.size = .longsz then .ok { pf with size := .llongsz } else .ok { pf with size := .longsz }
  -- '0'
  else if ch = 48 then
    -- "Already seen some digits; this is part of the field size."
    if pf.spacing > 0 then .ok { pf with spacing := toInt (pf.spacing * 10) }
    else .ok { pf with fillchar := 48 }
  else if ch > 48 ∧ ch ≤ 57 then .ok { pf with spacing := toInt (pf.spacing * 10 + (ch.toNat - 48)) }
  else .error (.assertion "ch>'0' && ch<='9'")

/-- `va_arg` for one word. -/
def vaWord (pf : PF σ) : Except PrintfStop (UInt32 × PF σ) :=
  match pf.ap with
  | .word v :: ap => .ok (v, { pf with ap := ap })
  | _ => .error .vaArg

/-- `va_arg` for two words. -/
def vaDword (pf : PF σ) : Except PrintfStop (UInt64 × PF σ) :=
  match pf.ap with
  | .dword v :: ap => .ok (v, { pf with ap := ap })
  | _ => .error .vaArg

/-- `va_arg` for a string. -/
def vaString (pf : PF σ) : Except PrintfStop (Option (List UInt8) × PF σ) :=
  match pf.ap with
  | .string s :: ap => .ok (s, { pf with ap := ap })
  | _ => .error .vaArg

/-- A signed argument, negative or not. -/
def pfSignednum (pf : PF σ) (signednum : Int) : PF σ :=
  if signednum < 0 then { pf with sign := -1, num := (-signednum).toNat } else { pf with num := signednum.toNat }

/-- Retrieves a numeric argument (C `__pf_getnum`). -/
def pfGetnum (pf : PF σ) (ch : UInt8) : Except PrintfStop (PF σ) :=
  -- 'p'
  if ch = 112 then do
    let (v, pf) ← vaWord pf
    .ok { pf with num := v.toNat }
  -- 'd'
  else if ch = 100 then
    match pf.size with
    | .intsz | .longsz => do
      let (v, pf) ← vaWord pf
      .ok (pfSignednum pf v.toInt32.toInt)
    | .llongsz => do
      let (v, pf) ← vaDword pf
      .ok (pfSignednum pf v.toInt64.toInt)
  else
    match pf.size with
    | .intsz | .longsz => do
      let (v, pf) ← vaWord pf
      .ok { pf with num := v.toNat }
    | .llongsz => do
      let (v, pf) ← vaDword pf
      .ok { pf with num := v.toNat }

/-- Sets the printing base (C `__pf_setbase`). -/
def pfSetbase (pf : PF σ) (ch : UInt8) : PF σ :=
  { pf with
    base :=
      -- 'd', 'u'
      if ch = 100 ∨ ch = 117 then 10
      -- 'x', 'p'
      else if ch = 120 ∨ ch = 112 then 16
      -- 'o'
      else if ch = 111 then 8
      else pf.base
    baseprefix := if pf.altformat ∨ ch = 112 then true else pf.baseprefix }

/-- Digits to print with. -/
def digitChars : List UInt8 := [48, 49, 50, 51, 52, 53, 54, 55, 56, 57, 97, 98, 99, 100, 101, 102]

/-- `*x = c`, in the buffer for a number. -/
def putAt (buf : List UInt8) (x : Int) (c : UInt8) : Except PrintfStop (List UInt8) :=
  if 0 ≤ x ∧ x < buf.length then .ok (buf.set x.toNat c) else .error .outOfBuffer

/-- The loop of `__pf_printnum`; the results are the buffer and `x`. -/
def digitLoop (base : Nat) : Nat → List UInt8 → Int → Nat → Except PrintfStop (List UInt8 × Int)
  | 0, _, _, _ => .error .spin
  | fuel + 1, buf, x, xnum => do
    let buf ← putAt buf x (digitChars.getD (xnum % base) 0)
    let x := x - 1
    let xnum := xnum / base
    if xnum > 0 then digitLoop base fuel buf x xnum else .ok (buf, x)

/-- The text of a number (in C `__pf_printnum`): from right to left in a buffer, which has anything in it at first. -/
def numberText (base num : Nat) : Except PrintfStop (List UInt8) := do
  let buf := List.replicate numberBufSize 0
  -- "Start in the last slot of the buffer."
  let x : Int := numberBufSize - 1
  let buf ← putAt buf x 0
  let (buf, x) ← digitLoop base 65 buf (x - 1) num
  let x := x + 1
  .ok ((buf.drop x.toNat).takeWhile (· ≠ 0))

variable (send : σ → List UInt8 → σ)

/-- Sends some text onward to the output (C `__pf_print`). -/
def pfPrint (pf : PF σ) (txt : List UInt8) : PF σ :=
  { pf with clientdata := send pf.clientdata txt, charcount := toInt (pf.charcount + txt.length) }

/-- Prints `spc` instances of the fill character (C `__pf_fill`). -/
def pfFill (pf : PF σ) : Nat → PF σ
  | 0 => pf
  | spc + 1 => pfFill (pfPrint send pf [pf.fillchar]) spc

/-- Prints `spc` fill characters on a condition. -/
def pfPad (pf : PF σ) (c : Bool) (spc : Nat) : PF σ := if c then pfFill send pf spc else pf

/-- General printing function: "The two prefixes get printed *after* space padding but *before* zero padding, if padding
is on the left." (C `__pf_printstuff`.) -/
def pfPrintstuff (pf : PF σ) (pre pre₂ stuff : List UInt8) : PF σ :=
  let len := toInt (pre.length + pre₂.length + stuff.length)
  let spc := (if pf.spacing > len then pf.spacing - len else 0).toNat
  let pf := pfPad send pf (spc > 0 && !pf.rightspc && pf.fillchar != 48) spc
  let pf := pfPrint send pf pre
  let pf := pfPrint send pf pre₂
  let pf := pfPad send pf (spc > 0 && !pf.rightspc && pf.fillchar == 48) spc
  let pf := pfPrint send pf stuff
  pfPad send pf (spc > 0 && pf.rightspc) spc

/-- Converts a number to ascii and prints it (C `__pf_printnum`). -/
def pfPrintnum (pf : PF σ) : Except PrintfStop (PF σ) := do
  let x ← numberText pf.base pf.num
  let bprefix : List UInt8 :=
    if pf.baseprefix ∧ pf.base = 16 then [48, 120]
    else if pf.baseprefix ∧ pf.base = 8 then [48]
    else []
  let sprefix : List UInt8 := if pf.sign ≠ 0 then [45] else []
  .ok (pfPrintstuff send pf sprefix bprefix x)

/-- The string `"(null)"`. -/
def nullString : List UInt8 := [40, 110, 117, 108, 108, 41]

/-- The modifier characters: `"#-l0123456789"`. -/
def modifiers : List UInt8 := [35, 45, 108, 48, 49, 50, 51, 52, 53, 54, 55, 56, 57]

/-- The characters of the integer types: `"doupx"`. -/
def intTypes : List UInt8 := [100, 111, 117, 112, 120]

/-- Processes a single character out of the format string (C `__pf_send`). -/
def pfSend (pf : PF σ) (ch : UInt8) : Except PrintfStop (PF σ) :=
  if ch = 0 then .error (.assertion "ch!=0")
  else if pf.inPct = false ∧ ch ≠ 37 then .ok (pfPrint send pf [ch])
  -- "Not in a format, but got a %. Start a format."
  else if pf.inPct = false then .ok { pf with inPct := true }
  else if ch ∈ modifiers then pfModifier pf ch
  else if ch ∈ intTypes then do
    let pf ← pfGetnum pf ch
    let pf ← pfPrintnum send (pfSetbase pf ch)
    .ok (pfEndfield pf)
  -- 's'
  else if ch = 115 then do
    let (str, pf) ← vaString pf
    let str := (str.getD nullString).takeWhile (· ≠ 0)
    .ok (pfEndfield (pfPrintstuff send pf [] [] str))
  -- 'c'
  else if ch = 99 then do
    let (v, pf) ← vaWord pf
    .ok (pfEndfield (pfPrintstuff send pf [] [] ([v.toUInt8].takeWhile (· ≠ 0))))
  -- "Illegal characters are printed like %%."
  else .ok (pfEndfield (pfPrintstuff send pf [] [] [ch]))

/-- The loop of `__vprintf` over the format string. -/
def vprintfLoop (pf : PF σ) : List UInt8 → Except PrintfStop (PF σ)
  | [] => .ok pf
  | c :: format => if c = 0 then .ok pf else do
    let pf ← pfSend send pf c
    vprintfLoop pf format

/-- The state in which a printf session starts. -/
def PF.start (clientdata : σ) (ap : List VaArg) : PF σ :=
  pfEndfield ⟨clientdata, ap, 0, false, .intsz, 0, 0, 0, false, 0, 0, false, false⟩

/-- A whole printf session: what has become of `clientdata`, and the number of characters (C `__vprintf`). -/
def vprintf (clientdata : σ) (format : List UInt8) (ap : List VaArg) : Except PrintfStop (σ × Int) := do
  let pf ← vprintfLoop send (PF.start clientdata ap) format
  .ok (pf.clientdata, pf.charcount)

end

section

variable {σ τ : Type}

/-- The state with another output. -/
def PF.map (f : σ → τ) (pf : PF σ) : PF τ :=
  ⟨f pf.clientdata, pf.ap, pf.charcount, pf.inPct, pf.size, pf.num, pf.sign, pf.spacing, pf.rightspc, pf.fillchar,
    pf.base, pf.baseprefix, pf.altformat⟩

/-- A callback does to `f c` what another one does to `c`. -/
def Sends (f : σ → τ) (send : σ → List UInt8 → σ) (send' : τ → List UInt8 → τ) : Prop :=
  ∀ c txt, f (send c txt) = send' (f c) txt

variable {f : σ → τ} {send : σ → List UInt8 → σ} {send' : τ → List UInt8 → τ} {pf : PF σ}

/-- Modifiers do not depend on the client's data. -/
lemma pfModifier_map (ch : UInt8) : pfModifier (pf.map f) ch = (pfModifier pf ch).map (PF.map f) := by
  rw [pfModifier, pfModifier]
  simp only [apply_ite (Except.map (PF.map f))]
  rfl

/-- Nor does an argument of one word. -/
lemma vaWord_map : vaWord (pf.map f) = (vaWord pf).map fun r => (r.1, r.2.map f) := by
  obtain ⟨c, ap⟩ := pf
  cases ap with
  | nil => rfl
  | cons v ap => cases v <;> rfl

/-- Nor does an argument of two words. -/
lemma vaDword_map : vaDword (pf.map f) = (vaDword pf).map fun r => (r.1, r.2.map f) := by
  obtain ⟨c, ap⟩ := pf
  cases ap with
  | nil => rfl
  | cons v ap => cases v <;> rfl

/-- Nor does a string. -/
lemma vaString_map : vaString (pf.map f) = (vaString pf).map fun r => (r.1, r.2.map f) := by
  obtain ⟨c, ap⟩ := pf
  cases ap with
  | nil => rfl
  | cons v ap => cases v <;> rfl

/-- A step after a step. -/
lemma bind_map {α β α' β' : Type} {x : Except PrintfStop α} {g : α → α'} {k : α' → Except PrintfStop β'}
    {k' : α → Except PrintfStop β} {h : β → β'} (step : ∀ a, k (g a) = (k' a).map h) :
    (x.map g >>= k) = (x >>= k').map h := by
  cases x with
  | error e => rfl
  | ok a => exact step a

/-- Nor does the sign of a number. -/
lemma pfSignednum_map (n : Int) : pfSignednum (pf.map f) n = (pfSignednum pf n).map f := by
  rw [pfSignednum, pfSignednum, apply_ite (PF.map f)]
  rfl

/-- Nor does the number to be printed. -/
lemma pfGetnum_map (ch : UInt8) : pfGetnum (pf.map f) ch = (pfGetnum pf ch).map (PF.map f) := by
  rw [pfGetnum, pfGetnum, vaWord_map, vaDword_map]
  have size : (pf.map f).size = pf.size := rfl
  rw [size]
  split_ifs
  · exact bind_map fun _ => rfl
  · cases pf.size with
    | intsz => exact bind_map fun _ => congrArg Except.ok (pfSignednum_map _)
    | longsz => exact bind_map fun _ => congrArg Except.ok (pfSignednum_map _)
    | llongsz => exact bind_map fun _ => congrArg Except.ok (pfSignednum_map _)
  · cases pf.size with
    | intsz => exact bind_map fun _ => rfl
    | longsz => exact bind_map fun _ => rfl
    | llongsz => exact bind_map fun _ => rfl

/-- Nor does its base. -/
lemma pfSetbase_map (ch : UInt8) : pfSetbase (pf.map f) ch = (pfSetbase pf ch).map f := rfl

section

variable (h : Sends f send send')
include h

/-- What is printed goes to the client in either form. -/
lemma pfPrint_map (txt : List UInt8) : pfPrint send' (pf.map f) txt = (pfPrint send pf txt).map f :=
  PF.ext (h pf.clientdata txt).symm rfl rfl rfl rfl rfl rfl rfl rfl rfl rfl rfl rfl

/-- So do the fill characters. -/
lemma pfFill_map (spc : Nat) : pfFill send' (pf.map f) spc = (pfFill send pf spc).map f := by
  induction spc generalizing pf with
  | zero => rfl
  | succ spc ih =>
    rw [pfFill, pfFill, pfPrint_map h]
    exact ih

/-- So does the padding on one side. -/
lemma pfPad_map (c : Bool) (spc : Nat) : pfPad send' (pf.map f) c spc = (pfPad send pf c spc).map f := by
  cases c with
  | true => exact pfFill_map h spc
  | false => rfl

/-- So does a field with its padding. -/
lemma pfPrintstuff_map (pre pre₂ stuff : List UInt8) :
    pfPrintstuff send' (pf.map f) pre pre₂ stuff = (pfPrintstuff send pf pre pre₂ stuff).map f := by
  rw [pfPrintstuff, pfPrintstuff, pfPad_map h, pfPrint_map h, pfPrint_map h, pfPad_map h, pfPrint_map h, pfPad_map h]
  rfl

/-- So does a number. -/
lemma pfPrintnum_map : pfPrintnum send' (pf.map f) = (pfPrintnum send pf).map (PF.map f) := by
  rw [pfPrintnum, pfPrintnum]
  show (numberText pf.base pf.num >>= _) = _
  cases numberText pf.base pf.num with
  | error e => rfl
  | ok x => exact congrArg Except.ok (pfPrintstuff_map h _ _ _)

/-- So does whatever one character of the format leads to. -/
lemma pfSend_map (ch : UInt8) : pfSend send' (pf.map f) ch = (pfSend send pf ch).map (PF.map f) := by
  rw [pfSend, pfSend, pfModifier_map, pfGetnum_map, vaString_map, vaWord_map]
  have inPct : (pf.map f).inPct = pf.inPct := rfl
  rw [inPct]
  split_ifs
  · rfl
  · exact congrArg Except.ok (pfPrint_map h _)
  · rfl
  · rfl
  · refine bind_map fun pf => ?_
    rw [pfSetbase_map, pfPrintnum_map h]
    exact bind_map fun _ => rfl
  · exact bind_map fun r => congrArg (fun pf => Except.ok (pfEndfield pf)) (pfPrintstuff_map h _ _ _)
  · exact bind_map fun r => congrArg (fun pf => Except.ok (pfEndfield pf)) (pfPrintstuff_map h _ _ _)
  · exact congrArg (fun pf => Except.ok (pfEndfield pf)) (pfPrintstuff_map h _ _ _)

/-- And the whole output. -/
lemma vprintfLoop_map (format : List UInt8) :
    vprintfLoop send' (pf.map f) format = (vprintfLoop send pf format).map (PF.map f) := by
  induction format generalizing pf with
  | nil => rfl
  | cons c format ih =>
    rw [vprintfLoop, vprintfLoop, pfSend_map h]
    split_ifs
    · rfl
    · exact bind_map fun pf => ih

/-- The output of a session is the same whatever it goes to. -/
lemma vprintf_map (c : σ) (format : List UInt8) (ap : List VaArg) :
    vprintf send' (f c) format ap = (vprintf send c format ap).map fun r => (f r.1, r.2) := by
  have run : vprintfLoop send' ((PF.start c ap).map f) format = (vprintfLoop send (PF.start c ap) format).map (PF.map f) :=
    vprintfLoop_map h format
  rw [vprintf, vprintf]
  show (vprintfLoop send' ((PF.start c ap).map f) format >>= _) = _
  rw [run]
  exact bind_map fun _ => rfl

end

end

end PDS.Libc
