import PDS.Kern.SyscallConv
import PDS.Lib.Extent

/-!
# User and kernel memory in `read` and `write`

`sys_read` and `sys_write` use the pointer that the process passes as it is: they compare it with `NULL`
and do not go through `copyin` and `copyout`. A buffer that is not in user memory is therefore refused in one
case only (`separated_iff_null`). A buffer in `kseg0` is kernel memory that the process can read
(`sysWrite_kseg0`) and overwrite (`sysRead_kseg0`).
-/

namespace PDS.Kern
open Word Extent

/-- The bytes of physical memory that do not belong to the address space of the current thread. -/
def Mach.KernelByte (m : Mach) (p : Nat) : Prop := ∀ as ∈ m.as, ∀ r, ¬ (as.block r).Has p

/-- Two states that differ only in kernel memory. -/
structure KState.SameUser (st st₂ : KState) : Prop where
  input : st₂.input = st.input
  nread : st₂.nread = st.nread
  output : st₂.output = st.output
  now : st₂.now = st.now
  vm : st₂.mach.phys.vm = st.mach.phys.vm
  as : st₂.mach.as = st.mach.as
  tlb : st₂.mach.tlb = st.mach.tlb
  clock : st₂.mach.clock = st.mach.clock
  preempted : st₂.mach.preempted = st.mach.preempted
  mem : ∀ p, ¬ st.mach.KernelByte p → st₂.mach.phys.mem p = st.mach.phys.mem p

/-- What a process can see of a call: how it ends and what is on the console. -/
def observed (x : Except Halt (KState × Outcome)) : Except Halt (List UInt8 × Outcome) :=
  x.map (fun r => (r.1.output, r.2))

/-- `sys_read` and `sys_write` refuse a buffer, and let nothing in or out of kernel memory. -/
structure Separated (st : KState) (buf nbytes : Nat) : Prop where
  keeps : ∀ st' o, sysRead st buf nbytes = .ok (st', o) →
    ∀ p, st.mach.KernelByte p → st'.mach.phys.mem p = st.mach.phys.mem p
  blind : ∀ st₂, st.SameUser st₂ → observed (sysWrite st₂ buf nbytes) = observed (sysWrite st buf nbytes)
  readFails : ∃ st' e, sysRead st buf nbytes = .ok (st', .errno e)
  writeFails : ∃ st' e, sysWrite st buf nbytes = .ok (st', .errno e)

/-- The null pointer is refused. -/
lemma stdio_null {loop : KState → Except Halt KState} {st : KState} {nbytes : Nat} :
    stdio loop st 0 nbytes = .ok (st, .errno efault) :=
  if_pos rfl

/-- A call that fails has been passed `NULL`. -/
lemma stdio_errno {loop : KState → Except Halt KState} {st st' : KState} {buf nbytes e : Nat}
    (fails : stdio loop st buf nbytes = .ok (st', .errno e)) : buf = 0 := by
  obtain ⟨z, -⟩ | ⟨-, h⟩ := stdio_ok fails
  · exact z
  · cases h

/-- Of the buffers that are not in user memory, only those at `NULL` are refused. -/
theorem separated_iff_null (st : KState) (buf nbytes : Nat) (_pos : 1 ≤ nbytes)
    (_out : userspaceTop < buf + nbytes) : Separated st buf nbytes ↔ buf = 0 := by
  constructor
  · intro sep
    obtain ⟨st', e, fails⟩ := sep.readFails
    exact stdio_errno fails
  · intro z
    subst z
    refine ⟨?_, ?_, ⟨st, efault, stdio_null⟩, ⟨st, efault, stdio_null⟩⟩
    · intro st' o e p _
      rw [sysRead, stdio_null] at e
      cases e
      rfl
    · intro st₂ same
      rw [sysWrite, sysWrite, stdio_null, stdio_null, observed, observed, Except.map, Except.map,
        same.output]

/-- A length that reaches past the end of user memory from `NULL` on. -/
theorem separated_null_wide : Separated demoState 0 0x80000001 :=
  (separated_iff_null demoState 0 0x80000001 (by decide) (by decide)).2 rfl

section Kseg0

variable {st : KState} {buf : Nat}

/-- In the direct-mapped segment the kernel reaches every frame. -/
lemma translate_kseg0 {m : Mach} {faulttype va : Nat} (lo : kseg0 ≤ va) (hi : va < kseg1) :
    m.translate faulttype va = .ok (m, some (va - kseg0)) :=
  if_pos ⟨lo, hi⟩

/-- The loop of `sys_write` puts the bytes of a `kseg0` buffer on the console. -/
lemma writeLoop_kseg0 {n i : Nat} (lo : kseg0 ≤ buf) (hi : buf + i + n ≤ kseg1) :
    writeLoop buf n i st = .ok { st with
      output := st.output ++ (List.range' i n).map (fun k => st.mach.phys.mem (buf + k - kseg0)) } := by
  induction n generalizing i st with
  | zero => simp [writeLoop]
  | succ n ih =>
    have va : wadd 32 buf i = buf + i := wadd_of_lt (by simp only [kseg1] at hi; omega)
    have tr : st.mach.load (buf + i) = .ok (st.mach, some (st.mach.phys.mem (buf + i - kseg0))) := by
      rw [Mach.load, translate_kseg0 (by omega) (by omega)]
      rfl
    rw [writeLoop, va, tr]
    simp only [ok_bind]
    rw [ih (by omega)]
    simp [KState.putch, List.range'_succ]

/-- `sys_write` of a `kseg0` buffer shows the process the kernel memory there. -/
theorem sysWrite_kseg0 {nbytes : Nat} (pos : 1 ≤ nbytes) (lo : kseg0 ≤ buf) (hi : buf + nbytes ≤ kseg1) :
    sysWrite st buf nbytes = .ok ({ st with
      output := st.output ++ (List.range' 0 nbytes).map (fun k => st.mach.phys.mem (buf + k - kseg0)) },
      .value nbytes) := by
  have nz : buf ≠ 0 := by
    simp only [kseg0] at lo
    omega
  rw [sysWrite, stdio, if_neg nz, if_neg (by omega), writeLoop_kseg0 lo (by omega)]
  rfl

/-- The loop of `sys_read` puts the input into a `kseg0` buffer, and nowhere else. -/
lemma readLoop_kseg0 {n i : Nat} (lo : kseg0 ≤ buf) (hi : buf + i + n ≤ kseg1) :
    ∃ st', readLoop buf n i st = .ok st' ∧
      (∀ k, k < n → st'.mach.phys.mem (buf + i + k - kseg0) = st.input (st.nread + k)) ∧
      ∀ p, p < buf + i - kseg0 ∨ buf + i + n - kseg0 ≤ p → st'.mach.phys.mem p = st.mach.phys.mem p := by
  induction n generalizing i st with
  | zero => exact ⟨st, rfl, by simp, fun _ _ => rfl⟩
  | succ n ih =>
    have va : wadd 32 buf i = buf + i := wadd_of_lt (by simp only [kseg1] at hi; omega)
    obtain ⟨st', run, bytes, keep⟩ := @ih { st with
      mach := { st.mach with phys := { st.mach.phys with
        mem := Function.update st.mach.phys.mem (buf + i - kseg0) (st.input st.nread) } }
      nread := st.nread + 1 } (i + 1) (by omega)
    dsimp only at bytes keep
    have below : buf + i - kseg0 < buf + (i + 1) - kseg0 := by omega
    refine ⟨st', ?_, ?_, ?_⟩
    · rw [readLoop, va, Mach.store, translate_kseg0 (by omega) (by omega)]
      exact run
    · intro k lt
      cases k with
      | zero =>
        rw [Nat.add_zero, Nat.add_zero, keep _ (.inl below), Function.update_self]
      | succ k =>
        have := bytes k (by omega)
        rwa [show buf + (i + 1) + k = buf + i + (k + 1) by omega,
          show st.nread + 1 + k = st.nread + (k + 1) by omega] at this
    · intro p apart
      have ne : p ≠ buf + i - kseg0 := by omega
      have apart' : p < buf + (i + 1) - kseg0 ∨ buf + (i + 1) + n - kseg0 ≤ p := by omega
      rw [keep p apart', Function.update_of_ne ne]

/-- `sys_read` into a `kseg0` buffer overwrites the kernel memory there. -/
theorem sysRead_kseg0 {nbytes : Nat} (pos : 1 ≤ nbytes) (lo : kseg0 ≤ buf) (hi : buf + nbytes ≤ kseg1) :
    ∃ st', sysRead st buf nbytes = .ok (st', .value nbytes) ∧
      ∀ k, k < nbytes → st'.mach.phys.mem (buf + k - kseg0) = st.input (st.nread + k) := by
  have nz : buf ≠ 0 := by
    simp only [kseg0] at lo
    omega
  obtain ⟨st', run, bytes, -⟩ := @readLoop_kseg0 st buf nbytes 0 lo hi
  refine ⟨st', ?_, bytes⟩
  rw [sysRead, stdio, if_neg nz, if_neg (by omega), run]
  rfl

end Kseg0

/-- `demoState` with one byte of the kernel image changed. -/
def demoKernelByte (b : UInt8) : KState :=
  { demoState with mach := { demoState.mach with phys := { demoState.mach.phys with
      mem := Function.update demoState.mach.phys.mem 0x100 b } } }

/-- The byte at `0x100` is kernel memory. A process reads it with `write(1, 0x80000100, 1)` and overwrites it
with `read(0, 0x80000100, 1)`, and neither call fails. -/
theorem separated_fails_kseg0 : userspaceTop < 0x80000100 + 1 ∧
    demoState.mach.KernelByte 0x100 ∧
    (∃ st', sysRead demoState 0x80000100 1 = .ok (st', .value 1) ∧
      st'.mach.phys.mem 0x100 ≠ demoState.mach.phys.mem 0x100) ∧
    demoState.SameUser (demoKernelByte 7) ∧
    observed (sysWrite demoState 0x80000100 1) = .ok ([0], .value 1) ∧
    observed (sysWrite (demoKernelByte 7) 0x80000100 1) = .ok ([7], .value 1) ∧
    ¬ Separated demoState 0x80000100 1 := by
  have kernel : demoState.mach.KernelByte 0x100 := by
    rintro as ⟨⟩ r ⟨lo, -⟩
    cases r <;> exact absurd lo (by decide)
  refine ⟨by decide, kernel, ?_, ?_, ?_, ?_, ?_⟩
  · obtain ⟨st', e, bytes⟩ := @sysRead_kseg0 demoState 0x80000100 1 (by decide) (by decide) (by decide)
    refine ⟨st', e, ?_⟩
    have b := bytes 0 (by decide)
    rw [show 0x80000100 + 0 - kseg0 = 0x100 from rfl] at b
    rw [b]
    decide
  · refine ⟨rfl, rfl, rfl, rfl, rfl, rfl, rfl, rfl, rfl, ?_⟩
    intro p user
    refine Function.update_of_ne ?_ ..
    rintro rfl
    exact user kernel
  · rw [sysWrite_kseg0 (by decide) (by decide) (by decide)]
    rfl
  · rw [sysWrite_kseg0 (by decide) (by decide) (by decide)]
    rfl
  · intro sep
    obtain ⟨st', e, fails⟩ := sep.readFails
    exact absurd (stdio_errno fails) (by decide)

end PDS.Kern
