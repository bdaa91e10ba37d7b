import PDS.Lib.Fallible
import PDS.Lib.Word

/-!
# Division of 64-bit numbers

Port of `common/gcc-millicode/qdivrem.c` with the macros of `longlong.h`, the routine behind every 64-bit division of the
kernel and of the user programs.

An `unsigned int` is a number below `2 ^ 32`, a digit is an `unsigned short`. The pointers `u`, `v` and `q` move inside
the arrays `uspace`, `vspace` and `qspace` of five digits each; here they are positions in these arrays, and an access
outside of them is a fault. The arrays are not initialized, so their contents are parameters.
-/

namespace PDS.Millicode
open Word

/-- How a routine can fail to return. -/
inductive Fault where
  /-- `1 / zero` -/
  | divideByZero
  /-- an access outside of an array -/
  | outOfBounds
  /-- a shift of a word by `INT_BITS` or more -/
  | wideShift
  /-- a loop that outlives its fuel -/
  | spin
deriving DecidableEq, Repr

/-- The high half of an `unsigned int` (C `HHALF`). -/
def hhalf (x : Nat) : Nat := x >>> 16

/-- The low half of an `unsigned int` (C `LHALF`). -/
def lhalf (x : Nat) : Nat := x &&& 0xffff

/-- The low half moved up (C `LHUP`). -/
def lhup (x : Nat) : Nat := x <<< 16 % 2 ^ 32

/-- The `ui[H]` of a `union uu`. -/
def uiH (x : BitVec 64) : Nat := (x.extractLsb' 32 32).toNat

/-- The `ui[L]` of a `union uu`. -/
def uiL (x : BitVec 64) : Nat := (x.extractLsb' 0 32).toNat

/-- A `union uu` with the words `h` and `l`. -/
def uu (h l : Nat) : BitVec 64 := BitVec.ofNat 32 h ++ BitVec.ofNat 32 l

/-- The digit base (C `B`). -/
def base : Nat := 1 <<< 16

/-- Two digits as one number (C `COMBINE`). -/
def combine (a b : Nat) : Nat := a <<< 16 % 2 ^ 32 ||| b

/-- Five digits (C `digit uspace[5]`). -/
abbrev Space := Fin 5 → BitVec 16

def Space.get (a : Space) (i : Nat) : Except Fault Nat :=
  if h : i < 5 then .ok (a ⟨i, h⟩).toNat else .error .outOfBounds

/-- Stores `(digit)x`. -/
def Space.set (a : Space) (i x : Nat) : Except Fault Space :=
  if h : i < 5 then .ok (Function.update a ⟨i, h⟩ (BitVec.ofNat 16 x)) else .error .outOfBounds

/-- Shifts the digits from `p` on to the left (C `shl`). -/
def shl (sh : Nat) : (len : Nat) → (p : Nat) → Space → Except Fault Space
  | 0, p, a => do a.set p (lhalf ((← a.get p) <<< sh % 2 ^ 32))
  | len + 1, p, a => do
    let a ← a.set p (lhalf ((← a.get p) <<< sh % 2 ^ 32) ||| (← a.get (p + 1)) >>> (16 - sh))
    shl sh len (p + 1) a

/-- The digits of a number in `a[1]`, …, `a[4]`. -/
def Space.store (a : Space) (x : BitVec 64) : Except Fault Space := do
  let a ← a.set 1 (hhalf (uiH x))
  let a ← a.set 2 (lhalf (uiH x))
  let a ← a.set 3 (hhalf (uiL x))
  a.set 4 (lhalf (uiL x))

/-- The number with the digits `a[1]`, …, `a[4]`. -/
def Space.load (a : Space) : Except Fault (BitVec 64) := do
  return uu (combine (← a.get 1) (← a.get 2)) (combine (← a.get 3) (← a.get 4))

/-- `for (n = 4; v[1] == 0; v++)`: the value of `n` at the end, and the position of `v`. It is left with `n = 1` when
there is only one digit. -/
def countDivisor (vs : Space) : (n : Nat) → (v : Nat) → Except Fault (Nat × Nat)
  | 0, _ => .error .spin
  | n + 1, v => do
    if (← vs.get (v + 1)) ≠ 0 then return (n + 1, v)
    else if n = 1 then return (n, v)
    else countDivisor vs n (v + 1)

/-- "Change of plan, per exercise 16": division by the one digit `v[2]`. -/
def divideShort (us vs : Space) (v : Nat) (arq : Bool) : Except Fault (BitVec 64 × Option (BitVec 64)) := do
  let t ← vs.get (v + 2)
  let q1 := (← us.get 1) / t
  let rbj := combine ((← us.get 1) % t) (← us.get 2)
  let q2 := rbj / t
  let rbj := combine (rbj % t) (← us.get 3)
  let q3 := rbj / t
  let rbj := combine (rbj % t) (← us.get 4)
  let q4 := rbj / t
  let digit (q : Nat) : Nat := (BitVec.ofNat 16 q).toNat
  return (uu (combine (digit q1) (digit q2)) (combine (digit q3) (digit q4)),
    if arq then some (BitVec.ofNat 64 (rbj % t)) else none)

/-- `for (m = 4 - n; u[1] == 0; u++)`: the value of `m` at the end, and the position of `u`. -/
def countDividend (us : Space) : (fuel : Nat) → (m : Int) → (u : Nat) → Except Fault (Int × Nat)
  | 0, _, _ => .error .spin
  | fuel + 1, m, u => do
    if (← us.get (u + 1)) ≠ 0 then return (m, u)
    else countDividend us fuel (m - 1) (u + 1)

/-- `for (i = 4 - m; --i >= 0;) q[i] = 0;` -/
def clearQuotient : (i : Nat) → Space → Except Fault Space
  | 0, qs => return qs
  | i + 1, qs => do clearQuotient i (← qs.set i 0)

/-- D1: `for (t = v[1]; t < B / 2; t <<= 1) d++;` -/
def normalize : (fuel : Nat) → (t : Nat) → (d : Nat) → Except Fault Nat
  | 0, _, _ => .error .spin
  | fuel + 1, t, d => if t < base / 2 then normalize fuel (t <<< 1 % 2 ^ 32) (d + 1) else return d

/-- The body of the loop of D3, up to its `break`. -/
def qhatTooBig (v1 : Nat) (again : Nat → Nat → Except Fault Nat) (qhat rhat : Nat) : Except Fault Nat :=
  let qhat := wsub 32 qhat 1
  let rhat := wadd 32 rhat v1
  if rhat ≥ base then return qhat else again qhat rhat

/-- D3: `while (v2 * qhat > COMBINE(rhat, uj2))`. -/
def testQhat (v1 v2 uj2 : Nat) : (fuel : Nat) → (qhat rhat : Nat) → Except Fault Nat
  | 0, _, _ => .error .spin
  | fuel + 1, qhat, rhat =>
    if wmul 32 v2 qhat > combine rhat uj2 then qhatTooBig v1 (testQhat v1 v2 uj2 fuel) qhat rhat else return qhat

/-- D3: "Calculate qhat". -/
def calculateQhat (v1 v2 uj0 uj1 uj2 : Nat) : Except Fault Nat :=
  if uj0 = v1 then qhatTooBig v1 (testQhat v1 v2 uj2 3) base uj1
  else
    let nn := combine uj0 uj1
    testQhat v1 v2 uj2 3 (nn / v1) (nn % v1)

/-- D4: "Multiply and subtract." The dividend starts at `u`, the divisor at `v`. -/
def multiplySubtract (vs : Space) (v qhat u : Nat) : (i : Nat) → (t : Nat) → Space → Except Fault (Nat × Space)
  | 0, t, us => return (t, us)
  | i + 1, t, us => do
    let t := wsub 32 (wsub 32 (← us.get (u + (i + 1))) (wmul 32 (← vs.get (v + (i + 1))) qhat)) t
    let us ← us.set (u + (i + 1)) (lhalf t)
    multiplySubtract vs v qhat u i (wsub 32 base (hhalf t) &&& (base - 1)) us

/-- D6: "add back." -/
def addBack (vs : Space) (v u : Nat) : (i : Nat) → (t : Nat) → Space → Except Fault (Nat × Space)
  | 0, t, us => return (t, us)
  | i + 1, t, us => do
    let t := wadd 32 t (wadd 32 (← us.get (u + (i + 1))) (← vs.get (v + (i + 1))))
    let us ← us.set (u + (i + 1)) (lhalf t)
    addBack vs v u i (hhalf t) us

/-- D3 to D6 for the digit of the quotient whose part of the dividend starts at `u`. -/
def quotientDigit (vs : Space) (v n u : Nat) (us : Space) : Except Fault (Nat × Space) := do
  let qhat ← calculateQhat (← vs.get (v + 1)) (← vs.get (v + 2)) (← us.get u) (← us.get (u + 1)) (← us.get (u + 2))
  let (t, us) ← multiplySubtract vs v qhat u n 0 us
  let t := wsub 32 (← us.get u) t
  let us ← us.set u (lhalf t)
  if hhalf t ≠ 0 then
    let (t, us) ← addBack vs v u n 0 us
    let us ← us.set u (lhalf (wadd 32 (← us.get u) t))
    return (wsub 32 qhat 1, us)
  else return (qhat, us)

/-- D7: "loop on j", which goes from `j` on `rest` times. -/
def programD (vs : Space) (v n u q : Nat) : (rest : Nat) → (j : Nat) → (us qs : Space) → Except Fault (Space × Space)
  | 0, _, us, qs => return (us, qs)
  | rest + 1, j, us, qs => do
    let (qhat, us) ← quotientDigit vs v n (u + j) us
    let qs ← qs.set (q + j) qhat
    programD vs v n u q rest (j + 1) us qs

/-- `for (i = m + n; i > m; --i)`: shifts the remainder back to the right; `m` is the position of `u[m]`. -/
def unshift (d m : Nat) : (i : Nat) → Space → Except Fault Space
  | 0, us => return us
  | i + 1, us => do
    let us ← us.set (m + (i + 1)) ((← us.get (m + (i + 1))) >>> d ||| lhalf ((← us.get (m + i)) <<< (16 - d) % 2 ^ 32))
    unshift d m i us

/-- D1: `if (d > 0)`. -/
def scale (d len p : Nat) (a : Space) : Except Fault Space := if d > 0 then shl d len p a else return a

/-- "we have to calculate it as u[m..m+n] >> d": `if (d)`. -/
def unscale (d m n : Nat) (us : Space) : Except Fault Space :=
  if d > 0 then do (← unshift d m n us).set m 0 else return us

/-- The part of `__qdivrem` for a divisor of `n` digits, two at least, from `v[1]` on. -/
def divideLong (us vs qs : Space) (n v : Nat) (arq : Bool) : Except Fault (BitVec 64 × Option (BitVec 64)) := do
  let (m, u) ← countDividend us 4 (4 - (n : Int)) 0
  let m := m.toNat
  let qs ← clearQuotient (4 - m) qs
  let q := 4 - m
  let d ← normalize 16 (← vs.get (v + 1)) 0
  let us ← scale d (m + n) u us
  let vs ← scale d (n - 1) (v + 1) vs
  let (us, qs) ← programD vs v n u q (m + 1) 0 us qs
  if arq then
    let us ← unscale d (u + m) n us
    return (← qs.load, some (← us.load))
  else return (← qs.load, none)

/-- Quotient and, if `arq` is not null, remainder of two 64-bit numbers (C `__qdivrem`). -/
def qdivrem (uspace vspace qspace : Space) (ull vll : BitVec 64) (arq : Bool) :
    Except Fault (BitVec 64 × Option (BitVec 64)) := do
  if vll = 0 then .error .divideByZero
  else if ull < vll then return (0, if arq then some ull else none)
  else
    let us ← (← uspace.set 0 0).store ull
    let vs ← vspace.store vll
    let (n, v) ← countDivisor vs 4 0
    if n = 1 then divideShort us vs v arq else divideLong us vs qspace n v arq

end PDS.Millicode
