import PDS.Millicode.QdivremRun
import Mathlib.Data.BitVec

/-!
# Operations on `long long`

Port of the rest of `common/gcc-millicode`, the routines that a compiler for a 32-bit machine calls for the operators on
64-bit numbers. A `long long` is a `BitVec 64` (the machine's arithmetic is two's complement), an `unsigned int` is a
number below `2 ^ 32`; where its bits matter, for shifts and for the logical operators, it is a `BitVec 32`.

The sum of two numbers is the sum of their words with one carry (`uu_add`), and likewise for differences (`uu_sub`). The
other routines follow from these two by calculations in the ring of 64-bit numbers.
-/

namespace PDS.Millicode
open Word

/-- The `ui[H]` of a `union uu`, or its `si[H]`, as bits. -/
def bitsH (x : BitVec 64) : BitVec 32 := x.extractLsb' 32 32

/-- The `ui[L]` of a `union uu` as bits. -/
def bitsL (x : BitVec 64) : BitVec 32 := x.extractLsb' 0 32

/-- A comparison, as a number. -/
def flag (p : Bool) : Nat := if p then 1 else 0

section

variable (uspace vspace qspace : Space)

/-- C `__divdi3` -/
def divdi3 (a b : BitVec 64) : Except Fault (BitVec 64) := do
  let (ua, neg) := if a.slt 0 then (-a, true) else (a, false)
  let (ub, neg) := if b.slt 0 then (-b, !neg) else (b, neg)
  let (uq, _) ← qdivrem uspace vspace qspace ua ub false
  return if neg then -uq else uq

/-- C `__moddi3`; `ur` is not initialized. -/
def moddi3 (ur : BitVec 64) (a b : BitVec 64) : Except Fault (BitVec 64) := do
  let (ua, neg) := if a.slt 0 then (-a, true) else (a, false)
  let ub := if b.slt 0 then -b else b
  let (_, arq) ← qdivrem uspace vspace qspace ua ub true
  let ur := arq.getD ur
  return if neg then -ur else ur

/-- C `__udivdi3` -/
def udivdi3 (a b : BitVec 64) : Except Fault (BitVec 64) := do
  return (← qdivrem uspace vspace qspace a b false).1

/-- C `__umoddi3`; `r` is not initialized. -/
def umoddi3 (r : BitVec 64) (a b : BitVec 64) : Except Fault (BitVec 64) := do
  return (← qdivrem uspace vspace qspace a b true).2.getD r

end

/-- `mid = udiff * vdiff` and its sign, as both routines calculate it. -/
def middle (u1 u0 v1 v0 : Nat) : Nat × Bool :=
  let (udiff, neg) := if u1 ≥ u0 then (wsub 32 u1 u0, false) else (wsub 32 u0 u1, true)
  let (vdiff, neg) := if v0 ≥ v1 then (wsub 32 v0 v1, neg) else (wsub 32 v1 v0, !neg)
  (wmul 32 udiff vdiff, neg)

/-- `prod -= x << N` -/
def subUp (x : Nat) (prod : Nat × Nat) : Nat × Nat :=
  let (prodh, prodl) := prod
  let was := prodl
  let prodl := wsub 32 prodl (lhup x)
  (wsub 32 prodh (wadd 32 (hhalf x) (flag (prodl > was))), prodl)

/-- `prod += x << N` -/
def addUp (x : Nat) (prod : Nat × Nat) : Nat × Nat :=
  let (prodh, prodl) := prod
  let was := prodl
  let prodl := wadd 32 prodl (lhup x)
  (wadd 32 prodh (wadd 32 (hhalf x) (flag (prodl < was))), prodl)

/-- The product of two words (C `__lmulq`). -/
def lmulq (u v : Nat) : BitVec 64 :=
  let u1 := hhalf u
  let u0 := lhalf u
  let v1 := hhalf v
  let v0 := lhalf v
  let low := wmul 32 u0 v0
  if u1 = 0 ∧ v1 = 0 then uu 0 low
  else
    let (mid, neg) := middle u1 u0 v1 v0
    let high := wmul 32 u1 v1
    -- `prod = (high << 2N) + (high << N);`
    let prod := (wadd 32 high (hhalf high), lhup high)
    let prod := if neg then subUp mid prod else addUp mid prod
    let (prodh, prodl) := addUp low prod
    -- `... + low;`
    let prodl := wadd 32 prodl low
    let prodh := if prodl < low then wadd 32 prodh 1 else prodh
    uu prodh prodl

/-- The product of `u` and `v`, once they are not negative. -/
def product (u v : BitVec 64) : BitVec 64 :=
  let u1 := uiH u
  let u0 := uiL u
  let v1 := uiH v
  let v0 := uiL v
  if u1 = 0 ∧ v1 = 0 then lmulq u0 v0
  else
    let low := lmulq u0 v0
    let (mid, negmid) := middle u1 u0 v1 v0
    let high := wmul 32 u1 v1
    let mid := if negmid then wsub 32 0 mid else mid
    uu (wadd 32 (wadd 32 (wadd 32 high mid) (uiL low)) (uiH low)) (uiL low)

/-- C `__muldi3` -/
def muldi3 (a b : BitVec 64) : BitVec 64 :=
  let (u, negall) := if a.slt 0 then (-a, true) else (a, false)
  let (v, negall) := if b.slt 0 then (-b, !negall) else (b, negall)
  let prod := product u v
  if negall then -prod else prod

/-- C `__adddi3` -/
def adddi3 (a b : BitVec 64) : BitVec 64 :=
  let sumL := wadd 32 (uiL a) (uiL b)
  uu (wadd 32 (wadd 32 (uiH a) (uiH b)) (flag (sumL < uiL b))) sumL

/-- C `__subdi3` -/
def subdi3 (a b : BitVec 64) : BitVec 64 :=
  let diffL := wsub 32 (uiL a) (uiL b)
  uu (wsub 32 (wsub 32 (uiH a) (uiH b)) (flag (diffL > uiL a))) diffL

/-- C `__negdi2` -/
def negdi2 (a : BitVec 64) : BitVec 64 :=
  let resL := wsub 32 0 (uiL a)
  uu (wsub 32 (wsub 32 0 (uiH a)) (flag (resL > 0))) resL

/-- C `__anddi3` -/
def anddi3 (a b : BitVec 64) : BitVec 64 := (bitsH a &&& bitsH b) ++ (bitsL a &&& bitsL b)

/-- C `__iordi3` -/
def iordi3 (a b : BitVec 64) : BitVec 64 := (bitsH a ||| bitsH b) ++ (bitsL a ||| bitsL b)

/-- C `__xordi3` -/
def xordi3 (a b : BitVec 64) : BitVec 64 := (bitsH a ^^^ bitsH b) ++ (bitsL a ^^^ bitsL b)

/-- C `__one_cmpldi2` -/
def oneCmpldi2 (a : BitVec 64) : BitVec 64 := ~~~bitsH a ++ ~~~bitsL a

/-- The operators `<<` and `>>` of a word, which are not defined from `INT_BITS` on. -/
def shiftWord (op : BitVec 32 → Nat → BitVec 32) (x : BitVec 32) (n : Nat) : Except Fault (BitVec 32) :=
  if n < 32 then .ok (op x n) else .error .wideShift

/-- C `<<` -/
def sll : BitVec 32 → Nat → Except Fault (BitVec 32) := shiftWord (· <<< ·)

/-- C `>>` of an `unsigned int` -/
def srl : BitVec 32 → Nat → Except Fault (BitVec 32) := shiftWord (· >>> ·)

/-- C `>>` of an `int` -/
def sra : BitVec 32 → Nat → Except Fault (BitVec 32) := shiftWord BitVec.sshiftRight

/-- C `__ashldi3` -/
def ashldi3 (a : BitVec 64) (shift : Nat) : Except Fault (BitVec 64) := do
  if shift = 0 then return a
  else if shift ≥ 32 then return (← sll (bitsL a) (shift - 32)) ++ 0#32
  else return ((← sll (bitsH a) shift) ||| (← srl (bitsL a) (32 - shift))) ++ (← sll (bitsL a) shift)

/-- C `__lshldi3`: "the same as arithmetic shift left" -/
def lshldi3 (a : BitVec 64) (shift : Nat) : Except Fault (BitVec 64) := do
  if shift = 0 then return a
  else if shift ≥ 32 then return (← sll (bitsL a) (shift - 32)) ++ 0#32
  else return ((← sll (bitsH a) shift) ||| (← srl (bitsL a) (32 - shift))) ++ (← sll (bitsL a) shift)

/-- C `__ashrdi3` -/
def ashrdi3 (a : BitVec 64) (shift : Nat) : Except Fault (BitVec 64) := do
  if shift = 0 then return a
  else if shift ≥ 32 then
    let s ← sra (← sra (bitsH a) (32 - 1)) 1
    return s ++ (← sra (bitsH a) (shift - 32))
  else return (← sra (bitsH a) shift) ++ ((← srl (bitsL a) shift) ||| (← sll (bitsH a) (32 - shift)))

/-- C `__lshrdi3` -/
def lshrdi3 (a : BitVec 64) (shift : Nat) : Except Fault (BitVec 64) := do
  if shift = 0 then return a
  else if shift ≥ 32 then return 0#32 ++ (← srl (bitsH a) (shift - 32))
  else return (← srl (bitsH a) shift) ++ ((← srl (bitsL a) shift) ||| (← sll (bitsH a) (32 - shift)))

/-- C `__cmpdi2` -/
def cmpdi2 (a b : BitVec 64) : Nat :=
  if (bitsH a).slt (bitsH b) then 0 else if (bitsH b).slt (bitsH a) then 2
  else if uiL a < uiL b then 0 else if uiL a > uiL b then 2 else 1

/-- C `__ucmpdi2` -/
def ucmpdi2 (a b : BitVec 64) : Nat :=
  if uiH a < uiH b then 0 else if uiH a > uiH b then 2
  else if uiL a < uiL b then 0 else if uiL a > uiL b then 2 else 1

end PDS.Millicode
