import Mathlib.Data.List.GetD
import PDS.Libc.Printf

/-!
# Printing into a buffer

Port of `common/libc/printf/snprintf.c`. The buffer is the memory from `buf` on. `vsnprintf_truncates` says what is left
in it: the output as far as there is room, and a terminating zero.
-/

namespace PDS.Libc

/-- Context structure for snprintf (C `SNP`). -/
structure SNP where
  buf : Nat → UInt8
  /-- "does not" include space for the terminator -/
  buflen : Nat
  bufpos : Nat

/-- A character is stored "if we aren't past the length". -/
def snprintfChar (snp : SNP) (c : UInt8) : SNP :=
  if snp.bufpos < snp.buflen then
    { snp with buf := Function.update snp.buf snp.bufpos c, bufpos := snp.bufpos + 1 }
  else snp

/-- Send function for snprintf (C `__snprintf_send`). -/
def snprintfSend (snp : SNP) (data : List UInt8) : SNP := data.foldl snprintfChar snp

/-- Prints into a buffer; the results are the buffer and the number of characters (C `vsnprintf`). -/
def vsnprintf (buf : Nat → UInt8) (len : Nat) (fmt : List UInt8) (ap : List VaArg) :
    Except PrintfStop ((Nat → UInt8) × Int) := do
  let (snp, chars) ← vprintf snprintfSend ⟨buf, if len = 0 then 0 else len - 1, 0⟩ fmt ap
  .ok (if len > 0 then Function.update snp.buf snp.bufpos 0 else snp.buf, chars)

/-- Prints into a buffer, with the arguments behind the format (C `snprintf`). -/
def snprintf (buf : Nat → UInt8) (len : Nat) (fmt : List UInt8) (ap : List VaArg) :
    Except PrintfStop ((Nat → UInt8) × Int) :=
  vsnprintf buf len fmt ap

/-- The characters that a session sends, and what it returns. -/
def output (fmt : List UInt8) (ap : List VaArg) : Except PrintfStop (List UInt8 × Int) :=
  vprintf (· ++ ·) [] fmt ap

section

variable {σ : Type} {send : σ → List UInt8 → σ} {P : σ → Int → Prop} {pf pf' : PF σ}

/-- `P` holds of the output and of the count. -/
def PF.Counts (P : σ → Int → Prop) (pf : PF σ) : Prop := P pf.clientdata pf.charcount

/-- The state of the output is left as it is. -/
def PF.Same (pf pf' : PF σ) : Prop := pf'.clientdata = pf.clientdata ∧ pf'.charcount = pf.charcount

/-- What has the same data has the same count. -/
lemma PF.Same.counts (same : PF.Same pf pf') (h : pf.Counts P) : pf'.Counts P := by
  rw [PF.Counts, same.1, same.2]
  exact h

/-- A modifier sends nothing. -/
lemma pfModifier_same {ch : UInt8} (run : pfModifier pf ch = .ok pf') : PF.Same pf pf' := by
  rw [pfModifier] at run
  split_ifs at run <;>
    · cases run
      exact ⟨rfl, rfl⟩

/-- An argument of one word sends nothing. -/
lemma vaWord_same {v : UInt32} (run : vaWord pf = .ok (v, pf')) : PF.Same pf pf' := by
  rw [vaWord] at run
  split at run
  · cases run
    exact ⟨rfl, rfl⟩
  · cases run

/-- Nor does one of two words. -/
lemma vaDword_same {v : UInt64} (run : vaDword pf = .ok (v, pf')) : PF.Same pf pf' := by
  rw [vaDword] at run
  split at run
  · cases run
    exact ⟨rfl, rfl⟩
  · cases run

/-- Nor does a string. -/
lemma vaString_same {v : Option (List UInt8)} (run : vaString pf = .ok (v, pf')) : PF.Same pf pf' := by
  rw [vaString] at run
  split at run
  · cases run
    exact ⟨rfl, rfl⟩
  · cases run

/-- Nor does the sign. -/
lemma pfSignednum_same (n : Int) : PF.Same pf (pfSignednum pf n) := by
  rw [pfSignednum]
  split_ifs <;> exact ⟨rfl, rfl⟩

/-- Nothing is sent by two steps that send nothing. -/
lemma PF.Same.trans {pf'' : PF σ} (h : PF.Same pf pf') (h' : PF.Same pf' pf'') : PF.Same pf pf'' :=
  ⟨h'.1.trans h.1, h'.2.trans h.2⟩

/-- Nor does the number to be printed. -/
lemma pfGetnum_same {ch : UInt8} (run : pfGetnum pf ch = .ok pf') : PF.Same pf pf' := by
  rw [pfGetnum] at run
  split_ifs at run
  · obtain ⟨⟨v, pf₁⟩, fetch, done⟩ := bind_ok_iff.1 run
    cases done
    exact (vaWord_same fetch).trans ⟨rfl, rfl⟩
  · cases size : pf.size with
    | intsz | longsz =>
      rw [size] at run
      obtain ⟨⟨v, pf₁⟩, fetch, done⟩ := bind_ok_iff.1 run
      cases done
      exact (vaWord_same fetch).trans (pfSignednum_same _)
    | llongsz =>
      rw [size] at run
      obtain ⟨⟨v, pf₁⟩, fetch, done⟩ := bind_ok_iff.1 run
      cases done
      exact (vaDword_same fetch).trans (pfSignednum_same _)
  · cases size : pf.size with
    | intsz | longsz =>
      rw [size] at run
      obtain ⟨⟨v, pf₁⟩, fetch, done⟩ := bind_ok_iff.1 run
      cases done
      exact (vaWord_same fetch).trans ⟨rfl, rfl⟩
    | llongsz =>
      rw [size] at run
      obtain ⟨⟨v, pf₁⟩, fetch, done⟩ := bind_ok_iff.1 run
      cases done
      exact (vaDword_same fetch).trans ⟨rfl, rfl⟩

section

variable (keeps : ∀ c n txt, P c n → P (send c txt) (toInt (n + txt.length)))
include keeps

/-- A text is counted when it is sent. -/
lemma pfPrint_counts (h : pf.Counts P) (txt : List UInt8) : (pfPrint send pf txt).Counts P := keeps _ _ txt h

/-- So are the fill characters. -/
lemma pfFill_counts (h : pf.Counts P) (spc : Nat) : (pfFill send pf spc).Counts P := by
  induction spc generalizing pf with
  | zero => exact h
  | succ spc ih => exact ih (pfPrint_counts keeps h _)

/-- So is the padding. -/
lemma pfPad_counts (h : pf.Counts P) (c : Bool) (spc : Nat) : (pfPad send pf c spc).Counts P := by
  cases c with
  | true => exact pfFill_counts keeps h spc
  | false => exact h

/-- So is a field. -/
lemma pfPrintstuff_counts (h : pf.Counts P) (pre pre₂ stuff : List UInt8) :
    (pfPrintstuff send pf pre pre₂ stuff).Counts P := by
  rw [pfPrintstuff]
  apply pfPad_counts keeps
  apply pfPrint_counts keeps
  apply pfPad_counts keeps
  apply pfPrint_counts keeps
  apply pfPrint_counts keeps
  apply pfPad_counts keeps
  exact h

/-- So is a number. -/
lemma pfPrintnum_counts (h : pf.Counts P) (run : pfPrintnum send pf = .ok pf') : pf'.Counts P := by
  obtain ⟨x, -, done⟩ := bind_ok_iff.1 run
  cases done
  exact pfPrintstuff_counts keeps h _ _ _

/-- So is whatever one character of the format leads to. -/
lemma pfSend_counts {ch : UInt8} (h : pf.Counts P) (run : pfSend send pf ch = .ok pf') : pf'.Counts P := by
  rw [pfSend] at run
  split_ifs at run
  · cases run
    exact pfPrint_counts keeps h _
  · cases run
    exact h
  · exact (pfModifier_same run).counts h
  · obtain ⟨pf₁, fetch, run⟩ := bind_ok_iff.1 run
    obtain ⟨pf₂, print, done⟩ := bind_ok_iff.1 run
    cases done
    have fetched : (pfSetbase pf₁ ch).Counts P := (pfGetnum_same fetch).counts h
    have printed : pf₂.Counts P := pfPrintnum_counts keeps fetched print
    exact printed
  · obtain ⟨⟨str, pf₁⟩, fetch, done⟩ := bind_ok_iff.1 run
    cases done
    exact pfPrintstuff_counts keeps ((vaString_same fetch).counts h) _ _ _
  · obtain ⟨⟨v, pf₁⟩, fetch, done⟩ := bind_ok_iff.1 run
    cases done
    exact pfPrintstuff_counts keeps ((vaWord_same fetch).counts h) _ _ _
  · cases run
    exact pfPrintstuff_counts keeps h _ _ _

/-- And the whole output. -/
lemma vprintfLoop_counts {format : List UInt8} (h : pf.Counts P) (run : vprintfLoop send pf format = .ok pf') :
    pf'.Counts P := by
  induction format generalizing pf with
  | nil =>
    cases run
    exact h
  | cons c format ih =>
    rw [vprintfLoop] at run
    split_ifs at run
    · cases run
      exact h
    · obtain ⟨pf₁, first, rest⟩ := bind_ok_iff.1 run
      exact ih (pfSend_counts keeps h first) rest

/-- What every piece of output keeps holds of the whole output. -/
lemma vprintf_counts {c c' : σ} {chars : Int} {format : List UInt8} {ap : List VaArg} (h : P c 0)
    (run : vprintf send c format ap = .ok (c', chars)) : P c' chars := by
  obtain ⟨pf, loop, done⟩ := bind_ok_iff.1 run
  cases done
  have start : (PF.start c ap).Counts P := h
  exact vprintfLoop_counts keeps start loop

end

end

section

variable {fmt : List UInt8} {ap : List VaArg} {out data : List UInt8} {chars : Int} {buf : Nat → UInt8} {len n : Nat}

/-- A small number is itself as an `int`. -/
lemma toInt_of_lt {x : Int} (ge : 0 ≤ x) (lt : x < 2 ^ 31) : toInt x = x :=
  Int.bmod_eq_of_le_mul_two (by omega) (by omega)

/-- Zero is. -/
lemma toInt_zero : toInt 0 = 0 := Int.zero_bmod

/-- The number of characters is the length of the output. -/
lemma output_length (sends : output fmt ap = .ok (out, chars)) : chars = toInt out.length := by
  have keeps (c : List UInt8) (n : Int) (txt : List UInt8) (count : n = toInt c.length) :
      toInt (n + txt.length) = toInt (c ++ txt).length := by
    rw [count, List.length_append, Int.natCast_add]
    exact Int.bmod_add_bmod
  have none : (0 : Int) = toInt ([] : List UInt8).length := by rw [List.length_nil, Int.natCast_zero, toInt_zero]
  exact vprintf_counts (P := fun out chars => chars = toInt (List.length out)) keeps none sends

/-- The context after the characters `out` have been sent. -/
def SNP.after (buf : Nat → UInt8) (buflen : Nat) (out : List UInt8) : SNP where
  buf i := if i < min out.length buflen then out.getD i 0 else buf i
  buflen := buflen
  bufpos := min out.length buflen

/-- One more character. -/
lemma snprintfChar_after (c : UInt8) : snprintfChar (SNP.after buf n out) c = SNP.after buf n (out ++ [c]) := by
  rw [snprintfChar, SNP.after, SNP.after]
  dsimp only
  rw [List.length_append, List.length_singleton]
  by_cases room : min out.length n < n
  · have here : min out.length n = out.length := by omega
    have next : min (out.length + 1) n = out.length + 1 := by omega
    rw [if_pos room, here, next]
    congr 1
    funext i
    obtain lt | eq | gt := Nat.lt_trichotomy i out.length
    · rw [Function.update_of_ne (by omega), if_pos lt, if_pos (by omega), List.getD_append _ _ _ _ lt]
    · rw [eq, Function.update_self, if_pos (by omega), List.getD_append_right _ _ _ _ (le_refl _), Nat.sub_self]
      rfl
    · rw [Function.update_of_ne (by omega), if_neg (by omega), if_neg (by omega)]
  · have full : min out.length n = n := by omega
    have full' : min (out.length + 1) n = n := by omega
    rw [if_neg room, full, full']
    congr 1
    funext i
    split_ifs with lt
    · rw [List.getD_append _ _ _ _ (by omega)]
    · rfl

/-- More characters, one after the other. -/
lemma snprintfSend_after : SNP.after buf n (out ++ data) = snprintfSend (SNP.after buf n out) data := by
  induction data generalizing out with
  | nil => rw [List.append_nil, snprintfSend, List.foldl_nil]
  | cons c data ih =>
    have split : out ++ c :: data = out ++ [c] ++ data := by rw [List.append_assoc, List.singleton_append]
    rw [snprintfSend, List.foldl_cons, snprintfChar_after, split]
    exact ih

/-- The buffer of a call that has sent `out`. -/
def leftIn (buf : Nat → UInt8) (len : Nat) (out : List UInt8) : Nat → UInt8 :=
  if len > 0 then Function.update (SNP.after buf (len - 1) out).buf (min out.length (len - 1)) 0
  else (SNP.after buf (len - 1) out).buf

/-- `vsnprintf` leaves as much of the output as fits. -/
lemma vsnprintf_eq (buf : Nat → UInt8) (len : Nat) (fmt : List UInt8) (ap : List VaArg) :
    vsnprintf buf len fmt ap = (output fmt ap).map fun r => (leftIn buf len r.1, r.2) := by
  have sends : Sends (SNP.after buf (len - 1)) (· ++ ·) snprintfSend := fun out data => snprintfSend_after
  have start : (⟨buf, if len = 0 then 0 else len - 1, 0⟩ : SNP) = SNP.after buf (len - 1) [] := by
    rw [SNP.after]
    congr 1
    split_ifs <;> omega
  rw [vsnprintf, start, vprintf_map sends, output]
  cases vprintf (· ++ ·) [] fmt ap with
  | error e => rfl
  | ok r => rfl

/-- And returns its length. -/
lemma vsnprintf_of_output (sends : output fmt ap = .ok (out, chars)) (short : out.length < 2 ^ 31) (buf : Nat → UInt8)
    (len : Nat) : vsnprintf buf len fmt ap = .ok (leftIn buf len out, (out.length : Int)) := by
  have count : chars = out.length := (output_length sends).trans (toInt_of_lt (by omega) (by omega))
  rw [vsnprintf_eq, sends, count]
  rfl

/-- The text in the buffer. -/
lemma leftIn_text {i : Nat} (lt : i < min out.length (len - 1)) : leftIn buf len out i = out.getD i 0 := by
  rw [leftIn, if_pos (by omega), Function.update_of_ne (Nat.ne_of_lt lt)]
  exact if_pos lt

/-- What is left is the beginning of the output. -/
lemma leftIn_map : (List.range (min out.length (len - 1))).map (leftIn buf len out) = out.take (len - 1) := by
  refine List.ext_getElem ?_ ?_
  · rw [List.length_map, List.length_range, List.length_take, Nat.min_comm]
  · intro i inside _
    rw [List.length_map, List.length_range] at inside
    rw [List.getElem_map, List.getElem_range, List.getElem_take, leftIn_text inside]
    exact List.getD_eq_getElem _ _ (by omega)

/-- And a terminator behind it. -/
lemma leftIn_end (pos : 0 < len) : leftIn buf len out (min out.length (len - 1)) = 0 := by
  rw [leftIn, if_pos pos, Function.update_self]

/-- Behind the terminator nothing is written. -/
lemma leftIn_rest {i : Nat} (ge : len ≤ i) : leftIn buf len out i = buf i := by
  have rest : (SNP.after buf (len - 1) out).buf i = buf i := if_neg (by omega)
  rw [leftIn]
  split_ifs with pos
  · rw [Function.update_of_ne (by omega)]
    exact rest
  · exact rest

end

/-- `vsnprintf` returns the length of the output, whatever the size of the buffer; it leaves as much of the output in it
as there is room for, with a zero behind it, and writes nothing else. The text is the same for all sizes as far as there
is room. -/
theorem vsnprintf_truncates {fmt : List UInt8} {ap : List VaArg} {out : List UInt8} {chars : Int}
    (sends : output fmt ap = .ok (out, chars)) (short : out.length < 2 ^ 31) (buf : Nat → UInt8) (len : Nat) :
    ∃ buf', vsnprintf buf len fmt ap = .ok (buf', out.length) ∧
      (∀ i, len ≤ i → buf' i = buf i) ∧
      (0 < len → (List.range (min out.length (len - 1))).map buf' = out.take (len - 1) ∧
        buf' (min out.length (len - 1)) = 0) ∧
      ∀ len' buf₁ buf₂ chars', len ≤ len' → vsnprintf buf₁ len' fmt ap = .ok (buf₂, chars') →
        ∀ i < min out.length (len - 1), buf₂ i = buf' i := by
  refine ⟨leftIn buf len out, vsnprintf_of_output sends short buf len, fun i => leftIn_rest, ?_, ?_⟩
  · intro pos
    exact ⟨leftIn_map, leftIn_end pos⟩
  · intro len' buf₁ buf₂ chars' le run' i lt
    rw [vsnprintf_of_output sends short] at run'
    cases run'
    rw [leftIn_text lt, leftIn_text (by omega)]

/-- `"%d"` for `-17` into a buffer of three characters. -/
theorem vsnprintf_truncates_three : ∃ buf', vsnprintf (fun _ => 7) 3 [37, 100] [.word (-17)] = .ok (buf', 3) ∧
    [buf' 0, buf' 1] = [45, 49] ∧ buf' 2 = 0 ∧ buf' 3 = 7 := by
  have sends : output [37, 100] [.word (-17)] = .ok ([45, 49, 55], 3) := by decide
  obtain ⟨buf', run, rest, text, -⟩ := vsnprintf_truncates sends (by decide) (fun _ => 7) 3
  obtain ⟨text, zero⟩ := text (by decide)
  exact ⟨buf', run, text, zero, rest 3 (le_refl 3)⟩

end PDS.Libc
