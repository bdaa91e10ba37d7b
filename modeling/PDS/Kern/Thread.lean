import PDS.Kern.Migration
import PDS.Lib.Places

/-!
# The thread system

Port of the scheduling functions of `kern/thread/thread.c`: `thread_make_runnable`, `thread_fork`,
`thread_switch` (with its callers `thread_yield`, `wchan_sleep` and `thread_exit`), `exorcise`, `wchan_wakeone`
and `wchan_wakeall`, with `thread_consider_migration` of `Migration.lean`, for any number of CPUs and threads.

The run queue of a CPU is locked from the moment `thread_switch` puts the current thread in its new place until
the next thread runs, also across the context switch; only idling releases the lock. The states in between are
those of `CpuMode`. The other critical sections are single steps, which need the lock to be free. The lock of a
wait channel is held from before `wchan_sleep` until the thread is on the list, so putting it there is one step.

Threads that have been created or taken off a wait channel and are not yet on a run queue are in the hands of
whoever calls `thread_make_runnable`. Forkers and wakers are numbered; which thread or interrupt handler a
waker is does not matter here, so a waker is not tied to a CPU. The timer interrupt comes while a thread runs
or while the CPU idles: it calls `thread_consider_migration` and then `thread_yield`, which does nothing on an
idle CPU.
-/

namespace PDS.Kern

/-- C `threadstate_t`. -/
inductive ThreadState where
  | run
  | ready
  | sleep
  | zombie
deriving DecidableEq, Repr

/-- What a CPU is doing. -/
inductive CpuMode where
  /-- it runs its current thread -/
  | running
  /-- in `thread_switch`, with the run queue locked; the current thread has been put in its new place -/
  | switching
  /-- in `cpu_idle`, on the stack of the current thread -/
  | idle
  /-- `c_curthread` is the next thread, but the CPU is still on the stack of the previous one, with the run
  queue locked -/
  | leaving (cur : Tid)
  /-- in `exorcise`, in the next thread -/
  | exorcising
deriving DecidableEq, Repr

/-- The current thread is dispatched: it is the one that the CPU runs or is about to run. -/
def CpuMode.dispatched : CpuMode → Bool
  | .running | .leaving _ | .exorcising => true
  | .switching | .idle => false

/-- The run queue stays locked until a later step. -/
def CpuMode.locked : CpuMode → Bool
  | .switching | .leaving _ => true
  | .running | .idle | .exorcising => false

/-- The thread system of `n` CPUs. -/
structure ThreadSys (n : Nat) where
  queues : Queues n
  /-- `c_curthread` -/
  curthread : Fin n → Tid
  mode : Fin n → CpuMode
  /-- `c_zombies` -/
  zombies : Fin n → List Tid
  /-- the call of `thread_consider_migration` on a CPU -/
  mig : Fin n → Option Migration
  /-- `wc_threads` of each wait channel -/
  wchan : Nat → List Tid
  /-- the threads in the hands of each forker or waker -/
  hand : Nat → List Tid
  /-- `t_state` -/
  state : Tid → ThreadState
  /-- the threads that have been created and not destroyed -/
  live : Tid → Bool

namespace ThreadSys

variable {n : Nat}

/-- The thread whose stack a CPU is using. -/
def stack (s : ThreadSys n) (c : Fin n) : Tid :=
  match s.mode c with
  | .leaving cur => cur
  | _ => s.curthread c

/-- `c_runqueue_lock` is held across steps. -/
def Locked (s : ThreadSys n) (c : Fin n) : Prop := (s.mode c).locked = true

/-- A CPU with interrupts on, which is where the timer interrupt may come. -/
def Interruptible (s : ThreadSys n) (c : Fin n) : Prop := s.mode c = .running ∨ s.mode c = .idle

/-- `thread_switch` has put the current thread in its new place. -/
def switching (s : ThreadSys n) (c : Fin n) (newstate : ThreadState) : ThreadSys n :=
  { s with
    mode := Function.update s.mode c .switching
    state := Function.update s.state (s.curthread c) newstate }

end ThreadSys

/-- The queue that a step of `thread_consider_migration` on `me` locks. -/
def Migration.locks {n : Nat} (me : Fin n) (m : Migration) (c : Fin n) : Prop :=
  match m.pc with
  | .count i => c = i
  | .take => c = me
  | .send i => c = i ∧ m.toSend > 0 ∧ c ≠ me
  | .leftover => c = me ∧ m.victims ≠ []
  | .finished => False

/-- One step of the thread system. -/
inductive ThreadStep {n : Nat} : ThreadSys n → ThreadSys n → Prop where
  /-- `thread_fork` creates a thread -/
  | fork {s c a t} : s.mode c = .running → s.mig c = none → s.live t = false → s.hand a = [] →
    ThreadStep s { s with
      queues := { s.queues with tcpu := Function.update s.queues.tcpu t (s.queues.tcpu (s.curthread c)) }
      hand := Function.update s.hand a [t]
      state := Function.update s.state t .ready
      live := Function.update s.live t true }
  /-- `wchan_wakeone` takes a thread off a wait channel -/
  | wakeone {s a w t ts} : s.hand a = [] → s.wchan w = t :: ts →
    ThreadStep s { s with hand := Function.update s.hand a [t], wchan := Function.update s.wchan w ts }
  /-- `wchan_wakeall` takes all threads off a wait channel -/
  | wakeall {s a w} : s.hand a = [] →
    ThreadStep s { s with hand := Function.update s.hand a (s.wchan w), wchan := Function.update s.wchan w [] }
  /-- `thread_make_runnable`, called by a forker or a waker -/
  | makeRunnable {s a t ts} : s.hand a = t :: ts → ¬ s.Locked (s.queues.tcpu t) →
    ThreadStep s { s with
      queues := s.queues.set (s.queues.tcpu t) (s.queues.runqueue (s.queues.tcpu t) ++ [t])
      hand := Function.update s.hand a ts }
  /-- `thread_yield` with other threads on the run queue -/
  | yield {s c} : s.mode c = .running → s.mig c = none → s.queues.runqueue c ≠ [] →
    ThreadStep s { s.switching c .ready with
      queues := s.queues.set c (s.queues.runqueue c ++ [s.curthread c]) }
  /-- `wchan_sleep` -/
  | sleep {s c w} : s.mode c = .running → s.mig c = none →
    ThreadStep s { s.switching c .sleep with
      wchan := Function.update s.wchan w (s.wchan w ++ [s.curthread c]) }
  /-- `thread_exit` -/
  | exit {s c} : s.mode c = .running → s.mig c = none →
    ThreadStep s { s.switching c .zombie with
      zombies := Function.update s.zombies c (s.zombies c ++ [s.curthread c]) }
  /-- the next thread is taken from the run queue -/
  | next {s c t ts} : s.mode c = .switching → s.queues.runqueue c = t :: ts →
    ThreadStep s { s with
      queues := s.queues.set c ts
      curthread := Function.update s.curthread c t
      mode := Function.update s.mode c (.leaving (s.curthread c)) }
  /-- there is none; the run queue is unlocked and the CPU idles -/
  | idle {s c} : s.mode c = .switching → s.queues.runqueue c = [] →
    ThreadStep s { s with mode := Function.update s.mode c .idle }
  /-- `cpu_idle` returns and the run queue is locked again -/
  | unidle {s c} : s.mode c = .idle → s.mig c = none →
    ThreadStep s { s with mode := Function.update s.mode c .switching }
  /-- `switchframe_switch`; the run queue is unlocked -/
  | switchframe {s c cur} : s.mode c = .leaving cur →
    ThreadStep s { s with
      mode := Function.update s.mode c .exorcising
      state := Function.update s.state (s.curthread c) .run }
  /-- `exorcise` destroys a zombie -/
  | destroy {s c z zs} : s.mode c = .exorcising → s.zombies c = z :: zs →
    ThreadStep s { s with
      zombies := Function.update s.zombies c zs
      live := Function.update s.live z false }
  /-- `exorcise` is done, and `thread_switch` returns -/
  | exorcised {s c} : s.mode c = .exorcising → s.zombies c = [] →
    ThreadStep s { s with mode := Function.update s.mode c .running }
  /-- the timer interrupt calls `thread_consider_migration` -/
  | migrate {s c} : s.Interruptible c → s.mig c = none →
    ThreadStep s { s with mig := Function.update s.mig c (some .start) }
  /-- a critical section of `thread_consider_migration` -/
  | migration {s c m q m'} : s.mig c = some m → (∀ d, m.locks c d → ¬ s.Locked d) →
    m.step c (s.curthread c) s.queues = .ok (q, m') →
    ThreadStep s { s with queues := q, mig := Function.update s.mig c (some m') }
  /-- `thread_consider_migration` returns -/
  | migrated {s c m} : s.mig c = some m → m.pc = .finished →
    ThreadStep s { s with mig := Function.update s.mig c none }

/-- The thread system at boot: every CPU runs a thread of its own, and there are no other threads. -/
structure ThreadSys.Boot {n : Nat} (s : ThreadSys n) : Prop where
  queues : ∀ c, s.queues.runqueue c = []
  tcpu : ∀ c, s.queues.tcpu (s.curthread c) = c
  mode : ∀ c, s.mode c = .running
  zombies : ∀ c, s.zombies c = []
  mig : ∀ c, s.mig c = none
  wchan : ∀ w, s.wchan w = []
  hand : ∀ a, s.hand a = []
  live : ∀ t, s.live t = true ↔ ∃ c, s.curthread c = t

end PDS.Kern
