import PDS.Kern.Syscall

/-!
# The return convention of system calls

The comment above `syscall` says how a system call returns: `v0` has the result and `a3` is `0` on
success, `v0` has the error code and `a3` is `1` on failure. The dispatcher tells the two apart by the
sign of the value, but the error codes are positive, and a byte count can be so large that it is
negative as an `int`. `syscall_returns_iff` says for which calls the convention is kept.
-/

namespace PDS.Kern
open Word

/-- The return convention for an outcome. -/
structure Trapframe.Returns (tf tf' : Trapframe) (o : Outcome) : Prop where
  a3 : tf' .a3 = match o with
    | .errno _ => 1
    | .value _ => 0
  v0 : tf' .v0 = o.err
  epc : tf' .epc = tf .epc + 4
  others : ∀ r, r ≠ .v0 → r ≠ .a3 → r ≠ .epc → tf' r = tf r

/-- The calls for which `syscall` keeps the convention: they succeed, with a count that is not negative
as an `int`. -/
def Served (st : KState) (tf : Trapframe) : Prop :=
  match tf.call with
  | .read | .write => (tf .a1).toNat ≠ 0 ∧ (tf .a2).toNat < 2 ^ 31
  | .time => ∃ m m', copySeconds st (tf .a0).toNat = .ok (m, 0) ∧
      copyNanoseconds st m (tf .a1).toNat = .ok (m', 0)
  | .exit | .reboot | .unknown => False

variable {st st' : KState} {tf tf' : Trapframe} {o : Outcome}

/-- The registers after a call. -/
lemma syscall_ok (ret : syscall st tf = .ok (st', tf')) :
    ∃ o, dispatch st tf = .ok (st', o) ∧
      tf' = ((tf.set .v0 o.err).set .a3 (if cInt o.err < 0 then 1 else 0)).set .epc (tf .epc + 4) := by
  obtain ⟨⟨st₁, o⟩, ed, e⟩ := bind_ok_iff.1 ret
  dsimp only at e
  split at e
  next neg =>
    cases e
    exact ⟨o, ed, by rw [if_pos neg]; rfl⟩
  next pos =>
    cases e
    exact ⟨o, ed, by rw [if_neg pos]; rfl⟩

/-- The convention is a matter of the sign. -/
lemma returns_iff (tf : Trapframe) :
    tf.Returns (((tf.set .v0 o.err).set .a3 (if cInt o.err < 0 then 1 else 0)).set .epc (tf .epc + 4)) o ↔
      ((∃ e, o = .errno e) ↔ cInt o.err < 0) := by
  have a3 : (((tf.set .v0 o.err).set .a3 (if cInt o.err < 0 then 1 else 0)).set .epc (tf .epc + 4)) .a3
      = if cInt o.err < 0 then 1 else 0 := rfl
  constructor
  · intro h
    have h3 := a3.symm.trans h.a3
    cases o with
    | errno e =>
      refine ⟨fun _ => ?_, fun _ => ⟨e, rfl⟩⟩
      by_contra neg
      rw [if_neg neg] at h3
      cases h3
    | value n =>
      refine ⟨fun h => ?_, fun neg => ?_⟩
      · obtain ⟨e, he⟩ := h
        cases he
      · rw [if_pos neg] at h3
        cases h3
  · intro h
    refine ⟨?_, rfl, rfl, ?_⟩
    · rw [a3]
      cases o with
      | errno e => exact if_pos (h.1 ⟨e, rfl⟩)
      | value n =>
        refine if_neg (fun neg => ?_)
        obtain ⟨e, he⟩ := h.2 neg
        cases he
    · intro r h₁ h₂ h₃
      rw [Trapframe.set, Function.update_of_ne h₃, Trapframe.set, Function.update_of_ne h₂, Trapframe.set,
        Function.update_of_ne h₁]

/-- A word is negative as a C int from 2^31 on. -/
lemma cInt_neg_iff {x : UInt32} : cInt x < 0 ↔ 2 ^ 31 ≤ x.toNat := by
  have lt := x.toNat_lt
  rw [cInt]
  split
  next h => omega
  next h => omega

/-- A failure is never reported as one, as the error codes are positive. -/
lemma not_returns_errno {e : Nat} (small : e < 2 ^ 31) :
    ¬ ((∃ e', Outcome.errno e = .errno e') ↔ cInt (Outcome.errno e).err < 0) := by
  intro h
  have neg := cInt_neg_iff.1 (h.1 ⟨e, rfl⟩)
  rw [Outcome.err, UInt32.toNat_ofNat_of_lt' (by simp only [UInt32.size]; omega)] at neg
  omega

/-- A call that returns a value keeps the convention unless the value reads as negative. -/
lemma returns_value_iff {x : UInt32} :
    ((∃ e, Outcome.value x.toNat = .errno e) ↔ cInt (Outcome.value x.toNat).err < 0) ↔
      x.toNat < 2 ^ 31 := by
  have err : (Outcome.value x.toNat).err = x := by simp [Outcome.err]
  rw [err, cInt_neg_iff]
  simp

/-- The calls on the console fail with EFAULT at the null pointer and nowhere else. -/
lemma stdio_ok {loop : KState → Except Halt KState} {buf nbytes : Nat}
    (e : stdio loop st buf nbytes = .ok (st', o)) :
    (buf = 0 ∧ o = .errno efault) ∨ (buf ≠ 0 ∧ o = .value nbytes) := by
  rw [stdio] at e
  split_ifs at e with h₁ h₂
  · cases e
    exact .inl ⟨h₁, rfl⟩
  · cases e
    exact .inr ⟨h₁, by rw [show nbytes = 0 by omega]⟩
  · obtain ⟨st₁, -, e⟩ := bind_ok_iff.1 e
    cases e
    exact .inr ⟨h₁, rfl⟩

/-- Reading and writing keep the convention exactly when they get past the check of the buffer and the
count is not negative as an `int`. -/
lemma stdio_returns_iff {loop : KState → Except Halt KState} {buf nbytes : UInt32}
    (e : stdio loop st buf.toNat nbytes.toNat = .ok (st', o)) :
    ((∃ e, o = .errno e) ↔ cInt o.err < 0) ↔ buf.toNat ≠ 0 ∧ nbytes.toNat < 2 ^ 31 := by
  obtain ⟨z, rfl⟩ | ⟨nz, rfl⟩ := stdio_ok e
  · constructor
    · exact fun h => absurd h (not_returns_errno (by decide))
    · exact fun h => absurd z h.1
  · rw [returns_value_iff]
    exact ⟨fun h => ⟨nz, h⟩, fun h => h.2⟩

/-- `copyout` returns 0 or EFAULT. -/
lemma copyout_result {m m' : Mach} {src : List UInt8} {userdest result : Nat}
    (e : copyout m src userdest = .ok (m', result)) : result = 0 ∨ result = efault := by
  rw [copyout] at e
  have check : (copycheck userdest src.length).2 = 0 ∨ (copycheck userdest src.length).2 = efault := by
    rw [copycheck]
    split_ifs <;> simp
  generalize copycheck userdest src.length = c at e check
  obtain ⟨stoplen, r⟩ := c
  dsimp only at e check
  split at e
  next =>
    cases e
    exact check
  next =>
    split at e
    next =>
      cases e
      exact .inr rfl
    next =>
      obtain ⟨⟨m₁, ok⟩, -, e⟩ := bind_ok_iff.1 e
      cases ok with
      | true =>
        cases e
        exact .inl rfl
      | false =>
        cases e
        exact .inr rfl

/-- The convention for `sys___time`: one of the two copies fails or none does. -/
lemma sysTime_returns_iff {a b : Nat} (e : sysTime st a b = .ok (st', o)) :
    ((∃ e, o = .errno e) ↔ cInt o.err < 0) ↔
      ∃ m m', copySeconds st a = .ok (m, 0) ∧ copyNanoseconds st m b = .ok (m', 0) := by
  obtain ⟨⟨m₁, r₁⟩, e₁, e⟩ := bind_ok_iff.1 e
  dsimp only at e
  split at e
  next nz =>
    cases e
    have small : r₁ < 2 ^ 31 := by
      rcases copyout_result e₁ with rfl | rfl <;> decide
    constructor
    · exact fun h => absurd h (not_returns_errno small)
    · rintro ⟨m, m', h, -⟩
      rw [e₁] at h
      cases h
      exact absurd rfl nz
  next z =>
    cases not_not.1 z
    obtain ⟨⟨m₂, r₂⟩, e₂, e⟩ := bind_ok_iff.1 e
    dsimp only at e
    split at e
    next nz =>
      cases e
      have small : r₂ < 2 ^ 31 := by
        rcases copyout_result e₂ with rfl | rfl <;> decide
      constructor
      · exact fun h => absurd h (not_returns_errno small)
      · rintro ⟨m, m', h, h'⟩
        rw [e₁] at h
        cases h
        rw [e₂] at h'
        cases h'
        exact absurd rfl nz
    next z =>
      cases e
      cases not_not.1 z
      constructor
      · exact fun _ => ⟨m₁, m₂, e₁, e₂⟩
      · exact fun _ => (returns_value_iff (x := 0)).2 (by decide)

/-- A system call returns as documented exactly when it is one that succeeds, with a count below
`2 ^ 31`. -/
theorem syscall_returns_iff (ret : syscall st tf = .ok (st', tf')) :
    (∀ o, dispatch st tf = .ok (st', o) → tf.Returns tf' o) ↔ Served st tf := by
  obtain ⟨o, ed, rfl⟩ := syscall_ok ret
  have unique : (∀ o', dispatch st tf = .ok (st', o') → tf.Returns
      (((tf.set .v0 o.err).set .a3 (if cInt o.err < 0 then 1 else 0)).set .epc (tf .epc + 4)) o') ↔
      ((∃ e, o = .errno e) ↔ cInt o.err < 0) := by
    rw [← returns_iff tf]
    constructor
    · exact fun h => h o ed
    · intro h o' eo
      rw [ed] at eo
      cases eo
      exact h
  rw [unique, Served]
  rw [dispatch] at ed
  cases call : tf.call with
  | reboot =>
    simp only [call, sysReboot] at ed
    split at ed
    next => cases ed
    next =>
      cases ed
      exact iff_of_false (not_returns_errno (by decide)) (fun h => h)
  | time =>
    simp only [call] at ed
    exact sysTime_returns_iff ed
  | exit =>
    simp only [call] at ed
    cases ed
  | read =>
    simp only [call] at ed
    exact stdio_returns_iff ed
  | write =>
    simp only [call] at ed
    exact stdio_returns_iff ed
  | unknown =>
    simp only [call] at ed
    cases ed
    exact iff_of_false (not_returns_errno (by decide)) (fun h => h)

/-- A process with one page of code, one of data and its stack. -/
def demoState : KState where
  mach :=
    { phys := ⟨Vm.clear 0x30000 0x40000 0x20000, fun _ => 0⟩
      as := some ⟨0x400000, 0x30000, 1, 0x10000000, 0x31000, 1, 0x32000⟩
      tlb := asActivate
      clock := 0
      preempted := fun _ => false }
  input := fun _ => 0x61
  nread := 0
  output := []
  now := (0, 0)

/-- The trapframe of `write(1, buf, nbytes)`. -/
def writeFrame (buf nbytes : UInt32) : Trapframe :=
  (((Trapframe.set (fun _ => 0) .v0 55).set .a0 1).set .a1 buf).set .a2 nbytes

/-- Writing three bytes of user memory returns as documented. -/
theorem syscall_returns_write : ∃ st' tf',
    syscall demoState (writeFrame 0x10000000 3) = .ok (st', tf') ∧
    ∀ o, dispatch demoState (writeFrame 0x10000000 3) = .ok (st', o) →
      (writeFrame 0x10000000 3).Returns tf' o := by
  have returns : (syscall demoState (writeFrame 0x10000000 3)).isOk = true := by decide +kernel
  cases ret : syscall demoState (writeFrame 0x10000000 3) with
  | error h =>
    rw [ret] at returns
    cases returns
  | ok r =>
    obtain ⟨st', tf'⟩ := r
    refine ⟨st', tf', rfl, (syscall_returns_iff ret).2 ?_⟩
    exact (show (0x10000000 : UInt32).toNat ≠ 0 ∧ (3 : UInt32).toNat < 2 ^ 31 by decide)

/-- `write(1, NULL, 5)` fails with `EFAULT`, which the process gets as the number of bytes written. -/
theorem syscall_failure_lost : ∃ st' tf',
    syscall demoState (writeFrame 0 5) = .ok (st', tf') ∧
    dispatch demoState (writeFrame 0 5) = .ok (st', .errno efault) ∧
    tf' .a3 = 0 ∧ tf' .v0 = 6 ∧ ¬ (writeFrame 0 5).Returns tf' (.errno efault) := by
  refine ⟨_, _, rfl, rfl, rfl, rfl, ?_⟩
  intro h
  cases h.a3

end PDS.Kern
