import PDS.Kern.Spl
import PDS.Kern.ThreadRun

/-!
# Traps

Port of the parts of `kern/arch/mips/locore/trap.c` that keep the recorded interrupt state in step with the processor
(`mips_trap` and `mips_usermode`), with what `thread_switch`, `thread_startup` and `cpu_idle` do to this state, on top of
the thread system of `Thread.lean`.

The stack of a thread is a list of levels, innermost first: interrupts and exceptions, the program in user mode, and
`thread_switch`, in which a thread stays while it is not on a CPU and in which a CPU idles. Inside a level the code calls
`splhigh` and `splx` in pairs, and acquires and releases spinlocks in any order. The code of a level undoes what it has
done to the interrupt state before it returns, and `thread_switch` is not called with a spinlock held, but for the one
of the wait channel. The processor turns interrupts off when it takes a trap, and restores the flag at the end of it.

A CPU that idles turns interrupts on and off again, with the run queue unlocked; the handler then runs on the stack of
the thread that has called `thread_switch`.
-/

namespace PDS.Kern

/-- How a thread has come to a level of its stack. -/
inductive TrapEntry where
  /-- `thread_startup` has called its function -/
  | thread
  /-- `asm_usermode`, and the thread runs its program -/
  | user
  /-- an interrupt; `old_in` and `doadjust` are locals of `mips_trap` -/
  | irq (oldIn doadjust : Bool)
  /-- a system call or a fault; `CST_IEp` of `tf_status` says whether interrupts were on -/
  | exception (iep : Bool)
  /-- a call of `thread_switch`; `spl` is a local of it -/
  | switch (spl : Int)
deriving DecidableEq, Repr

/-- A level of the stack of a thread. -/
structure TrapLevel where
  entry : TrapEntry
  /-- what the calls of `splhigh` have returned that no `splx` has undone yet -/
  saved : List Int
  /-- the number of spinlocks that have been acquired and not released -/
  locks : Nat
deriving DecidableEq, Repr

/-- The spinlocks that are held at all levels, but for that of the run queue in `thread_switch`. -/
def locksOf (levels : List TrapLevel) : Nat := (levels.map TrapLevel.locks).sum

/-- The interrupt state of a thread and its stack. -/
structure TrapThread where
  curspl : Int
  iplhighCount : Int
  /-- C `t_in_interrupt` -/
  inInterrupt : Bool
  levels : List TrapLevel
deriving DecidableEq, Repr

/-- A thread that `thread_fork` has made: it comes out of `thread_switch` with the run queue locked, and
`thread_startup` calls `spl0`. -/
def TrapThread.fresh : TrapThread :=
  ⟨threadFork.curspl, threadFork.iplhighCount, false, [⟨.switch iplNone, [], 0⟩, ⟨.thread, [], 0⟩]⟩

/-- What `spinlock_acquire` and `spinlock_release` do to the interrupt state. -/
def spinlockAcquire (cur : SplThread) : Except Halt SplThread := splraise cur iplNone iplHigh

@[inherit_doc spinlockAcquire]
def spinlockRelease (cur : SplThread) : Except Halt SplThread := spllower cur iplHigh iplNone

/-- "if the currently recorded interrupt state is interrupts on (spl of 0), adjust the recorded state to match" -/
def irqEnter (cur : SplThread) : Except Halt (Bool × SplThread) :=
  if cur.curspl = iplNone then do
    kassert (cur.curspl = iplNone) "curthread->t_curspl == 0"
    kassert (cur.iplhighCount = 0) "curthread->t_iplhigh_count == 0"
    .ok (true, { cur with curspl := iplHigh, iplhighCount := cur.iplhighCount + 1 })
  else .ok (false, cur)

/-- "and restore after processing the interrupt" -/
def irqLeave (doadjust : Bool) (cur : SplThread) : Except Halt SplThread :=
  if doadjust then do
    kassert (cur.curspl = iplHigh) "curthread->t_curspl == IPL_HIGH"
    kassert (cur.iplhighCount = 1) "curthread->t_iplhigh_count == 1"
    .ok { cur with iplhighCount := cur.iplhighCount - 1, curspl := iplNone }
  else .ok cur

/-- "forcing splhigh(), which may do a redundant cpu_irqoff() but forces the stored MI interrupt state into sync, then
restoring the previous state" -/
def exceptionEnter (cur : SplThread) : Except Halt SplThread := do
  let (spl, cur) ← splhigh cur
  let (_, cur) ← splx cur spl
  .ok cur

/-- "Interrupts should have been on while in user mode." -/
def syscallEnter (cur : SplThread) : Except Halt SplThread := do
  let cur ← exceptionEnter cur
  kassert (cur.curspl = iplNone) "curthread->t_curspl == 0"
  kassert (cur.iplhighCount = 0) "curthread->t_iplhigh_count == 0"
  .ok cur

/-- The beginning of `thread_switch`, up to the unlocking of the wait channel in case of `S_SLEEP`. -/
def switchEnter (sleep : Bool) (cur : SplThread) : Except Halt (Int × SplThread) := do
  let (spl, cur) ← splhigh cur
  let cur ← spinlockAcquire cur
  let cur ← if sleep then spinlockRelease cur else .ok cur
  .ok (spl, cur)

/-- The thread system of `n` CPUs with their interrupt flags. -/
structure TrapSys (n : Nat) extends ThreadSys n where
  irqOn : Fin n → Bool
  thread : Tid → TrapThread

namespace TrapSys

variable {n : Nat}

/-- `curthread`, and the interrupt flag. -/
def cur (s : TrapSys n) (c : Fin n) : SplThread :=
  ⟨(s.thread (s.curthread c)).curspl, (s.thread (s.curthread c)).iplhighCount, s.irqOn c⟩

/-- The stack of the current thread. -/
def levels (s : TrapSys n) (c : Fin n) : List TrapLevel := (s.thread (s.curthread c)).levels

/-- C `curthread->t_in_interrupt`. -/
def inInterrupt (s : TrapSys n) (c : Fin n) : Bool := (s.thread (s.curthread c)).inInterrupt

/-- The current thread and the interrupt flag change. -/
def put (s : TrapSys n) (c : Fin n) (cur : SplThread) (inInterrupt : Bool) (levels : List TrapLevel) : TrapSys n :=
  { s with
    irqOn := Function.update s.irqOn c cur.irqOn
    thread := Function.update s.thread (s.curthread c) ⟨cur.curspl, cur.iplhighCount, inInterrupt, levels⟩ }

/-- The threads are scheduled. -/
def sched (s : TrapSys n) (t : ThreadSys n) : TrapSys n := { s with toThreadSys := t }

/-- The CPU runs kernel code of its current thread at the level `ℓ`: in the thread itself, in an interrupt handler
while it idles, or in `exorcise`. -/
def Code (s : TrapSys n) (c : Fin n) (ℓ : TrapLevel) (ls : List TrapLevel) : Prop :=
  s.levels c = ℓ :: ls ∧ ℓ.entry ≠ .user ∧
    match s.mode c with
    | .running | .exorcising => True
    | .idle => ∃ oldIn doadjust, ℓ.entry = .irq oldIn doadjust
    | .switching | .leaving _ => False

end TrapSys

open TrapSys

/-- One step of the CPUs, which may end in a failed assertion. -/
inductive TrapStep {n : Nat} : TrapSys n → Except Halt (TrapSys n) → Prop where
  /-- `spl = splhigh();` -/
  | splhigh {s c ℓ ls} : s.Code c ℓ ls →
    TrapStep s (do
      let (spl, x) ← splhigh (s.cur c)
      .ok (s.put c x (s.inInterrupt c) ({ ℓ with saved := spl :: ℓ.saved } :: ls)))
  /-- `splx(spl);` -/
  | splx {s c ℓ ls spl saved} : s.Code c ℓ ls → ℓ.saved = spl :: saved →
    TrapStep s (do
      let (_, x) ← splx (s.cur c) spl
      .ok (s.put c x (s.inInterrupt c) ({ ℓ with saved } :: ls)))
  /-- `spinlock_acquire` -/
  | acquire {s c ℓ ls} : s.Code c ℓ ls →
    TrapStep s (do
      let x ← spinlockAcquire (s.cur c)
      .ok (s.put c x (s.inInterrupt c) ({ ℓ with locks := ℓ.locks + 1 } :: ls)))
  /-- `spinlock_release` -/
  | release {s c ℓ ls k} : s.Code c ℓ ls → ℓ.locks = k + 1 →
    TrapStep s (do
      let x ← spinlockRelease (s.cur c)
      .ok (s.put c x (s.inInterrupt c) ({ ℓ with locks := k } :: ls)))
  /-- the processor takes an interrupt -/
  | interrupt {s c} : s.irqOn c = true →
    TrapStep s (do
      let (doadjust, x) ← irqEnter { s.cur c with irqOn := false }
      .ok (s.put c x true (⟨.irq (s.inInterrupt c) doadjust, [], 0⟩ :: s.levels c)))
  /-- and returns from it -/
  | iret {s c oldIn doadjust ls} : s.Code c ⟨.irq oldIn doadjust, [], 0⟩ ls →
    TrapStep s (do
      let x ← irqLeave doadjust (s.cur c)
      .ok (s.put c { x with irqOn := true } oldIn ls))
  /-- a fault, in the kernel or in user mode -/
  | fault {s c} : s.mode c = .running →
    TrapStep s (do
      let x ← exceptionEnter { s.cur c with irqOn := false }
      .ok (s.put c x (s.inInterrupt c) (⟨.exception (s.irqOn c), [], 0⟩ :: s.levels c)))
  /-- a system call -/
  | syscall {s c ℓ ls} : s.mode c = .running → s.levels c = ℓ :: ls → ℓ.entry = .user →
    TrapStep s (do
      let x ← syscallEnter { s.cur c with irqOn := false }
      .ok (s.put c x (s.inInterrupt c) (⟨.exception (s.irqOn c), [], 0⟩ :: ℓ :: ls)))
  /-- the end of both: `cpu_irqoff();`, and the processor restores the flag -/
  | eret {s c iep ls} : s.mode c = .running → s.levels c = ⟨.exception iep, [], 0⟩ :: ls →
    TrapStep s (.ok (s.put c { s.cur c with irqOn := iep } (s.inInterrupt c) ls))
  /-- `mips_usermode` -/
  | usermode {s c ℓ ls} : s.mode c = .running → s.Code c ℓ ls → locksOf (ℓ :: ls) = 0 →
    TrapStep s (do
      let (_, x) ← spl0 (s.cur c)
      .ok (s.put c { x with irqOn := true } (s.inInterrupt c) (⟨.user, [], 0⟩ :: ℓ :: ls)))
  /-- `cpu_irqonoff` turns interrupts on -/
  | irqon {s c spl ls} : s.mode c = .idle → s.levels c = ⟨.switch spl, [], 0⟩ :: ls →
    TrapStep s (.ok { s with irqOn := Function.update s.irqOn c true })
  /-- and off -/
  | irqoff {s c spl ls} : s.mode c = .idle → s.levels c = ⟨.switch spl, [], 0⟩ :: ls →
    TrapStep s (.ok { s with irqOn := Function.update s.irqOn c false })
  /-- a step of the thread system that is not one of `thread_switch` -/
  | schedule {s t} : ThreadStep s.toThreadSys t → t.mode = s.mode →
    TrapStep s (.ok { s.sched t with thread := fun u => if s.live u then s.thread u else .fresh })
  /-- `thread_switch` is called by `thread_yield` or `thread_exit` -/
  | switch {s t c ℓ ls} : ThreadStep s.toThreadSys t → s.mode c = .running → t.mode c = .switching →
    t.state (s.curthread c) ≠ .sleep → s.Code c ℓ ls → locksOf (ℓ :: ls) = 0 →
    TrapStep s (do
      let (spl, x) ← switchEnter false (s.cur c)
      .ok ((s.sched t).put c x (s.inInterrupt c) (⟨.switch spl, [], 0⟩ :: ℓ :: ls)))
  /-- it is called by `wchan_sleep`, with the wait channel locked and not in an interrupt handler -/
  | sleep {s t c ℓ ls} : ThreadStep s.toThreadSys t → s.mode c = .running → t.mode c = .switching →
    t.state (s.curthread c) = .sleep → s.Code c ℓ ls → ℓ.locks = 1 → locksOf ls = 0 → s.inInterrupt c = false →
    TrapStep s (do
      let (spl, x) ← switchEnter true (s.cur c)
      .ok ((s.sched t).put c x (s.inInterrupt c) (⟨.switch spl, [], 0⟩ :: { ℓ with locks := 0 } :: ls)))
  /-- the run queue is unlocked and the CPU idles -/
  | idle {s t c} : ThreadStep s.toThreadSys t → s.mode c = .switching → t.mode c = .idle →
    TrapStep s (do
      let x ← spinlockRelease (s.cur c)
      .ok ((s.sched t).put c x (s.inInterrupt c) (s.levels c)))
  /-- `cpu_idle` returns and the run queue is locked again -/
  | unidle {s t c spl ls} : ThreadStep s.toThreadSys t → s.mode c = .idle → t.mode c = .switching →
    s.levels c = ⟨.switch spl, [], 0⟩ :: ls → s.irqOn c = false →
    TrapStep s (do
      let x ← spinlockAcquire (s.cur c)
      .ok ((s.sched t).put c x (s.inInterrupt c) (s.levels c)))
  /-- the next thread becomes `curthread` -/
  | next {s t c u} : ThreadStep s.toThreadSys t → s.mode c = .switching → t.mode c = .leaving u →
    TrapStep s (.ok (s.sched t))
  /-- the next thread unlocks the run queue -/
  | switchframe {s t c u} : ThreadStep s.toThreadSys t → s.mode c = .leaving u → t.mode c = .exorcising →
    TrapStep s (do
      let x ← spinlockRelease (s.cur c)
      .ok ((s.sched t).put c x (s.inInterrupt c) (s.levels c)))
  /-- `thread_switch` returns -/
  | exorcised {s t c spl ls} : ThreadStep s.toThreadSys t → s.mode c = .exorcising → t.mode c = .running →
    s.levels c = ⟨.switch spl, [], 0⟩ :: ls →
    TrapStep s (do
      let (_, x) ← splx (s.cur c) spl
      .ok ((s.sched t).put c x (s.inInterrupt c) ls))

/-- The system at boot: every CPU runs a thread that has not called `spl0` yet. -/
structure TrapSys.Boot {n : Nat} (s : TrapSys n) : Prop where
  threads : s.toThreadSys.Boot
  irqOn : ∀ c, s.irqOn c = false
  thread : ∀ c, s.thread (s.curthread c) =
    ⟨threadCreate.curspl, threadCreate.iplhighCount, false, [⟨.thread, [iplNone], 0⟩]⟩

/-- The level of a stretch of code, when it has saved these levels and the level before that was `base`. -/
def splAt (base : Int) (saved : List Int) : Int := if saved = [] then base else iplHigh

/-- The level at which a stretch of code begins. -/
def TrapEntry.base (below : Int) : TrapEntry → Int
  | .thread | .user => iplNone
  | .irq .. | .switch _ => iplHigh
  | .exception _ => below

/-- `t_curspl` of a thread with this stack. -/
def splOf : List TrapLevel → Int
  | [] => iplNone
  | ℓ :: ls => splAt (ℓ.entry.base (splOf ls)) ℓ.saved

/-- `t_in_interrupt` of a thread with this stack. -/
def inIrq (levels : List TrapLevel) : Bool := levels.any fun ℓ => match ℓ.entry with
  | .irq .. => true
  | .thread | .user | .exception _ | .switch _ => false

end PDS.Kern
