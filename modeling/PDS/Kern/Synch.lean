import PDS.Kern.Machine
import PDS.Lib.Family

/-!
# Semaphores

Port of `P` and `V` in `kern/thread/synch.c`, with `wchan_sleep` and `wchan_wakeone` of
`kern/thread/thread.c`, for any number of threads that use one semaphore.

A thread is somewhere between the accesses that the two spinlocks separate (`SemPc`), and any thread may make
the next step (`SemStep`): it takes a lock that is free, accesses the count or the wait channel while it holds
the lock, or releases the lock. `wchan_sleep` puts the thread on the wait channel and releases the lock of the
channel in one step: `thread_switch` keeps the channel locked until the thread is on the list. A thread that
has been removed from the channel takes `sem_lock` and tests the count again.
-/

namespace PDS.Kern
open Family

/-- Where a thread is in `P` or `V`. -/
inductive SemPc where
  /-- in neither of them -/
  | out
  /-- in `P`, before `sem_lock`; it may have been woken -/
  | pEnter (woken : Bool)
  /-- with `sem_lock`, before the test of the count -/
  | pTest (woken : Bool)
  /-- with `sem_lock`, before `wchan_lock` -/
  | pZero
  /-- with both locks, before `sem_lock` is released -/
  | pBridge
  /-- with the lock of the channel, before `wchan_sleep` -/
  | pSleep
  /-- on the wait channel -/
  | asleep
  /-- with `sem_lock`, after the decrement -/
  | pTaken
  /-- in `V`, before `sem_lock` -/
  | vEnter
  /-- with `sem_lock`, before the increment -/
  | vInc
  /-- with `sem_lock`, before `wchan_wakeone` takes the lock of the channel -/
  | vWake
  /-- with both locks, before `threadlist_remhead` -/
  | vHead
  /-- with `sem_lock`, after `wchan_wakeone` -/
  | vDone
deriving DecidableEq, Repr

namespace SemPc

/-- The places with `sem_lock`. -/
def holdsSem : SemPc → Bool
  | pTest _ | pZero | pBridge | pTaken | vInc | vWake | vHead | vDone => true
  | _ => false

/-- The places with the lock of the wait channel. -/
def holdsWchan : SemPc → Bool
  | pBridge | pSleep | vHead => true
  | _ => false

/-- The thread has been woken and has not yet tested the count again. -/
def isWoken : SemPc → Bool
  | pEnter woken | pTest woken => woken
  | _ => false

/-- The thread has incremented the count and not yet woken another one. -/
def isWaking : SemPc → Bool
  | vWake | vHead => true
  | _ => false

end SemPc

/-- The largest `int`. -/
def intMax : Int := 2 ^ 31 - 1

/-- A semaphore and the threads `T` that use it (C `struct semaphore`), with what they have done so far. -/
structure Sem (T : Type) where
  count : Int
  semLock : Option T
  wchanLock : Option T
  wchan : List T
  pc : T → SemPc
  /-- number of increments by `V` -/
  incs : Nat
  /-- number of decrements by `P` -/
  decs : Nat
  /-- number of decrements that each thread has made -/
  took : T → Nat
  /-- number of times that `P` has returned to each thread -/
  returned : T → Nat

variable {T : Type} [DecidableEq T]

/-- A new semaphore (C `sem_create`). -/
def semCreate (initialCount : Nat) : Sem T :=
  ⟨initialCount, none, none, [], fun _ => .out, 0, 0, fun _ => 0, fun _ => 0⟩

/-- The thread `t` goes on to `pc`. -/
def Sem.goto (s : Sem T) (t : T) (pc : SemPc) : Sem T := { s with pc := Function.update s.pc t pc }

/-- One step of a thread in `P` or `V`. -/
inductive SemStep : Sem T → Sem T → Prop where
  /-- a thread calls `P` -/
  | callP {s t} : s.pc t = .out → SemStep s (s.goto t (.pEnter false))
  /-- `spinlock_acquire(&sem->sem_lock)` -/
  | pAcquire {s t b} : s.pc t = .pEnter b → s.semLock = none →
    SemStep s { s.goto t (.pTest b) with semLock := some t }
  /-- `sem->sem_count == 0` -/
  | pZero {s t b} : s.pc t = .pTest b → s.count = 0 → SemStep s (s.goto t .pZero)
  /-- `wchan_lock(sem->sem_wchan)` -/
  | pBridge {s t} : s.pc t = .pZero → s.wchanLock = none →
    SemStep s { s.goto t .pBridge with wchanLock := some t }
  /-- `spinlock_release(&sem->sem_lock)` -/
  | pRelease {s t} : s.pc t = .pBridge → SemStep s { s.goto t .pSleep with semLock := none }
  /-- `wchan_sleep(sem->sem_wchan)` -/
  | pSleep {s t} : s.pc t = .pSleep →
    SemStep s { s.goto t .asleep with wchan := s.wchan ++ [t], wchanLock := none }
  /-- the loop ends, the assertion holds and the count is decremented -/
  | pTake {s t b} : s.pc t = .pTest b → s.count ≠ 0 → s.count > 0 →
    SemStep s { s.goto t .pTaken with
      count := s.count - 1, decs := s.decs + 1, took := Function.update s.took t (s.took t + 1) }
  /-- `P` releases `sem_lock` and returns -/
  | pReturn {s t} : s.pc t = .pTaken →
    SemStep s { s.goto t .out with
      semLock := none, returned := Function.update s.returned t (s.returned t + 1) }
  /-- a thread calls `V` -/
  | callV {s t} : s.pc t = .out → SemStep s (s.goto t .vEnter)
  /-- `spinlock_acquire(&sem->sem_lock)` -/
  | vAcquire {s t} : s.pc t = .vEnter → s.semLock = none →
    SemStep s { s.goto t .vInc with semLock := some t }
  /-- the count is incremented and the assertion holds; it stays within its type -/
  | vInc {s t} : s.pc t = .vInc → s.count < intMax → s.count + 1 > 0 →
    SemStep s { s.goto t .vWake with count := s.count + 1, incs := s.incs + 1 }
  /-- `spinlock_acquire(&wc->wc_lock)` -/
  | vWake {s t} : s.pc t = .vWake → s.wchanLock = none →
    SemStep s { s.goto t .vHead with wchanLock := some t }
  /-- nobody was sleeping -/
  | vNobody {s t} : s.pc t = .vHead → s.wchan = [] →
    SemStep s { s.goto t .vDone with wchanLock := none }
  /-- the first sleeping thread is woken -/
  | vHead {s t u ts} : s.pc t = .vHead → s.wchan = u :: ts →
    SemStep s { (s.goto t .vDone).goto u (.pEnter true) with wchan := ts, wchanLock := none }
  /-- `V` releases `sem_lock` and returns -/
  | vReturn {s t} : s.pc t = .vDone → SemStep s { s.goto t .out with semLock := none }

variable {s s' : Sem T} {t : T} {b : SemPc}

/-- The thread that moves. -/
@[simp] lemma Sem.goto_self (s : Sem T) (t : T) (b : SemPc) : (s.goto t b).pc t = b :=
  Function.update_self ..

/-- The threads that do not. -/
lemma Sem.goto_ne {u : T} (h : u ≠ t) : (s.goto t b).pc u = s.pc u :=
  Function.update_of_ne h ..

/-- The locks exclude other threads, the sleeping threads are those on the wait channel, and a thread that has
seen the count at zero still does while it holds `sem_lock`. -/
structure Sem.Inv (s : Sem T) : Prop where
  sem : Holds SemPc.holdsSem s.pc s.semLock
  wch : Holds SemPc.holdsWchan s.pc s.wchanLock
  queue : ∀ t, t ∈ s.wchan ↔ s.pc t = .asleep
  nodup : s.wchan.Nodup
  zero : ∀ t, s.pc t = .pZero ∨ s.pc t = .pBridge → s.count = 0

/-- A move between waking points leaves the wait channel right. -/
lemma Sem.Inv.queue_goto (inv : s.Inv) {a : SemPc} (h : s.pc t = a) (ha : a ≠ .asleep) (hb : b ≠ .asleep)
    (u : T) : u ∈ s.wchan ↔ (s.goto t b).pc u = .asleep := by
  by_cases same : u = t
  · subst same
    rw [goto_self, inv.queue, h]
    exact iff_of_false ha hb
  · rw [goto_ne same]
    exact inv.queue u

/-- A thread found the count to be 0 only if it is. -/
lemma Sem.Inv.zero_goto (inv : s.Inv) (hb : b = .pZero ∨ b = .pBridge → s.count = 0) (u : T)
    (h : (s.goto t b).pc u = .pZero ∨ (s.goto t b).pc u = .pBridge) : s.count = 0 := by
  by_cases same : u = t
  · subst same
    rw [goto_self] at h
    exact hb h
  · rw [goto_ne same] at h
    exact inv.zero u h

/-- While a thread has `sem_lock` elsewhere, no other one is between its test and its sleep. -/
lemma Sem.Inv.no_zero (inv : s.Inv) (held : (s.pc t).holdsSem = true) (hb : ¬ (b = .pZero ∨ b = .pBridge))
    (u : T) : ¬ ((s.goto t b).pc u = .pZero ∨ (s.goto t b).pc u = .pBridge) := by
  intro h
  by_cases same : u = t
  · subst same
    rw [goto_self] at h
    exact hb h
  · rw [goto_ne same] at h
    refine same (inv.sem.unique held ?_)
    cases h with
    | inl h => rw [h]; rfl
    | inr h => rw [h]; rfl

omit [DecidableEq T] in
/-- The thread at the head of the wait channel is another one. -/
lemma Sem.Inv.head_asleep (inv : s.Inv) {u : T} {ts : List T} (h : s.pc t = .vHead) (cons : s.wchan = u :: ts) :
    u ≠ t ∧ s.pc u = .asleep := by
  have asleep := (inv.queue u).1 (cons ▸ List.mem_cons_self)
  refine ⟨?_, asleep⟩
  rintro rfl
  rw [h] at asleep
  cases asleep

/-- Every step keeps the invariant. -/
lemma Sem.Inv.step (inv : s.Inv) (st : SemStep s s') : s'.Inv := by
  cases st with
  | callP h =>
    exact ⟨inv.sem.keep (by rw [h]; rfl), inv.wch.keep (by rw [h]; rfl), inv.queue_goto h nofun nofun,
      inv.nodup, inv.zero_goto nofun⟩
  | pAcquire h free =>
    have sem := inv.sem
    rw [free] at sem
    exact ⟨sem.acquire rfl, inv.wch.keep (by rw [h]; rfl), inv.queue_goto h nofun nofun, inv.nodup,
      inv.zero_goto nofun⟩
  | pZero h z =>
    exact ⟨inv.sem.keep (by rw [h]; rfl), inv.wch.keep (by rw [h]; rfl), inv.queue_goto h nofun nofun,
      inv.nodup, inv.zero_goto (fun _ => z)⟩
  | pBridge h free =>
    have wch := inv.wch
    rw [free] at wch
    exact ⟨inv.sem.keep (by rw [h]; rfl), wch.acquire rfl, inv.queue_goto h nofun nofun, inv.nodup,
      inv.zero_goto (fun _ => inv.zero _ (.inl h))⟩
  | pRelease h =>
    exact ⟨inv.sem.release (by rw [h]; rfl) rfl, inv.wch.keep (by rw [h]; rfl), inv.queue_goto h nofun nofun,
      inv.nodup, inv.zero_goto nofun⟩
  | @pSleep t h =>
    have off : t ∉ s.wchan := by
      rw [inv.queue, h]
      nofun
    refine ⟨inv.sem.keep (by rw [h]; rfl), inv.wch.release (by rw [h]; rfl) rfl, ?_, ?_, inv.zero_goto nofun⟩
    · intro u
      by_cases same : u = t
      · subst same
        simp
      · rw [List.mem_append, List.mem_singleton, or_iff_left same]
        exact (inv.queue u).trans (by rw [Sem.goto_ne same])
    · exact List.nodup_append.2 ⟨inv.nodup, List.nodup_singleton t, by
        rintro u hu v hv rfl
        rw [List.mem_singleton.1 hv] at hu
        exact off hu⟩
  | pTake h _ _ =>
    exact ⟨inv.sem.keep (by rw [h]; rfl), inv.wch.keep (by rw [h]; rfl), inv.queue_goto h nofun nofun,
      inv.nodup, fun u hu => absurd hu (inv.no_zero (b := .pTaken) (by rw [h]; rfl) nofun u)⟩
  | pReturn h =>
    exact ⟨inv.sem.release (by rw [h]; rfl) rfl, inv.wch.keep (by rw [h]; rfl), inv.queue_goto h nofun nofun,
      inv.nodup, inv.zero_goto nofun⟩
  | callV h =>
    exact ⟨inv.sem.keep (by rw [h]; rfl), inv.wch.keep (by rw [h]; rfl), inv.queue_goto h nofun nofun,
      inv.nodup, inv.zero_goto nofun⟩
  | vAcquire h free =>
    have sem := inv.sem
    rw [free] at sem
    exact ⟨sem.acquire rfl, inv.wch.keep (by rw [h]; rfl), inv.queue_goto h nofun nofun, inv.nodup,
      inv.zero_goto nofun⟩
  | vInc h _ _ =>
    exact ⟨inv.sem.keep (by rw [h]; rfl), inv.wch.keep (by rw [h]; rfl), inv.queue_goto h nofun nofun,
      inv.nodup, fun u hu => absurd hu (inv.no_zero (b := .vWake) (by rw [h]; rfl) nofun u)⟩
  | vWake h free =>
    have wch := inv.wch
    rw [free] at wch
    exact ⟨inv.sem.keep (by rw [h]; rfl), wch.acquire rfl, inv.queue_goto h nofun nofun, inv.nodup,
      inv.zero_goto nofun⟩
  | vNobody h _ =>
    exact ⟨inv.sem.keep (by rw [h]; rfl), inv.wch.release (by rw [h]; rfl) rfl, inv.queue_goto h nofun nofun,
      inv.nodup, inv.zero_goto nofun⟩
  | @vHead t u ts h cons =>
    obtain ⟨ne, asleep⟩ := inv.head_asleep h cons
    have pcu : (s.goto t .vDone).pc u = .asleep := (Sem.goto_ne ne).trans asleep
    have nd := inv.nodup
    rw [cons, List.nodup_cons] at nd
    refine ⟨?_, ?_, ?_, nd.2, ?_⟩
    · exact (inv.sem.keep (by rw [h]; rfl)).keep (by rw [show Function.update s.pc t .vDone u = _ from pcu]; rfl)
    · exact (inv.wch.release (by rw [h]; rfl) rfl).keep
        (by rw [show Function.update s.pc t .vDone u = _ from pcu]; rfl)
    · intro v
      by_cases sv : v = u
      · subst sv
        rw [Sem.goto_self]
        exact iff_of_false nd.1 nofun
      · have mem : v ∈ ts ↔ v ∈ s.wchan := by
          rw [cons, List.mem_cons, or_iff_right sv]
        rw [mem, Sem.goto_ne sv]
        exact inv.queue_goto (b := .vDone) h nofun nofun v
    · intro v hv
      have held : (s.pc t).holdsSem = true := by
        rw [h]
        rfl
      by_cases sv : v = u
      · subst sv
        rw [Sem.goto_self] at hv
        exact absurd hv nofun
      · rw [Sem.goto_ne sv] at hv
        exact absurd hv (inv.no_zero (b := .vDone) held nofun v)
  | vReturn h =>
    exact ⟨inv.sem.release (by rw [h]; rfl) rfl, inv.wch.keep (by rw [h]; rfl), inv.queue_goto h nofun nofun,
      inv.nodup, inv.zero_goto nofun⟩

/-- The count is what increments and decrements make it, and every `P` that has returned has made a decrement
of its own. -/
structure Sem.Counted (initial : Nat) (s : Sem T) : Prop where
  balance : s.count = initial + s.incs - s.decs
  nonneg : 0 ≤ s.count
  own : ∀ t, s.took t = s.returned t + if s.pc t = .pTaken then 1 else 0

/-- A move that takes and gives nothing keeps the count. -/
lemma Sem.Counted.goto {initial : Nat} (ct : s.Counted initial) {a : SemPc} (h : s.pc t = a) (ha : a ≠ .pTaken)
    (hb : b ≠ .pTaken) : (s.goto t b).Counted initial := by
  refine ⟨ct.balance, ct.nonneg, fun u => ?_⟩
  by_cases same : u = t
  · subst same
    rw [goto_self, if_neg hb]
    exact (ct.own u).trans (by rw [h, if_neg ha]; rfl)
  · rw [goto_ne same]
    exact ct.own u

/-- Every step keeps the count. -/
lemma Sem.Counted.step {initial : Nat} (ct : s.Counted initial) (inv : s.Inv) (st : SemStep s s') :
    s'.Counted initial := by
  cases st with
  | callP h => exact ct.goto h nofun nofun
  | @pAcquire t w h _ =>
    have := ct.goto (b := .pTest w) h nofun nofun
    exact ⟨this.balance, this.nonneg, this.own⟩
  | pZero h _ => exact ct.goto h nofun nofun
  | pBridge h _ =>
    have := ct.goto (b := .pBridge) h nofun nofun
    exact ⟨this.balance, this.nonneg, this.own⟩
  | pRelease h =>
    have := ct.goto (b := .pSleep) h nofun nofun
    exact ⟨this.balance, this.nonneg, this.own⟩
  | pSleep h =>
    have := ct.goto (b := .asleep) h nofun nofun
    exact ⟨this.balance, this.nonneg, this.own⟩
  | @pTake t _ h _ pos =>
    have bal := ct.balance
    refine ⟨?_, Int.sub_nonneg_of_le pos, fun u => ?_⟩
    · show s.count - 1 = initial + s.incs - ((s.decs + 1 : Nat) : Int)
      omega
    · by_cases same : u = t
      · subst same
        simp [ct.own, h, Sem.goto]
      · simp [Sem.goto, same, ct.own]
  | @pReturn t h =>
    refine ⟨ct.balance, ct.nonneg, fun u => ?_⟩
    by_cases same : u = t
    · subst same
      simp [Sem.goto, ct.own, h]
    · simp [Sem.goto, same, ct.own]
  | callV h => exact ct.goto h nofun nofun
  | vAcquire h _ =>
    have := ct.goto (b := .vInc) h nofun nofun
    exact ⟨this.balance, this.nonneg, this.own⟩
  | vInc h _ _ =>
    have := ct.goto (b := .vWake) h nofun nofun
    have bal := ct.balance
    refine ⟨?_, Int.le_add_one ct.nonneg, this.own⟩
    show s.count + 1 = initial + ((s.incs + 1 : Nat) : Int) - s.decs
    omega
  | vWake h _ =>
    have := ct.goto (b := .vHead) h nofun nofun
    exact ⟨this.balance, this.nonneg, this.own⟩
  | vNobody h _ =>
    have := ct.goto (b := .vDone) h nofun nofun
    exact ⟨this.balance, this.nonneg, this.own⟩
  | @vHead t u ts h cons =>
    obtain ⟨ne, asleep⟩ := inv.head_asleep h cons
    have := (ct.goto (b := .vDone) h nofun nofun).goto (b := .pEnter true) ((goto_ne ne).trans asleep)
      nofun nofun
    exact ⟨this.balance, this.nonneg, this.own⟩
  | vReturn h =>
    have := ct.goto (b := .out) h nofun nofun
    exact ⟨this.balance, this.nonneg, this.own⟩

omit [DecidableEq T] in
/-- The lock of the channel keeps a `V` that has found nobody apart from a thread that is going to sleep. -/
lemma Sem.Inv.nobody (inv : s.Inv) (h : s.pc t = .vHead) (nil : s.wchan = []) (u : T) :
    ¬ (s.pc u = .asleep ∨ s.pc u = .pSleep) := by
  intro hu
  cases hu with
  | inl asleep =>
    have mem := (inv.queue u).2 asleep
    rw [nil] at mem
    cases mem
  | inr sleep =>
    have same : u = t := inv.wch.unique (by rw [h]; rfl) (by rw [sleep]; rfl)
    rw [same, h] at sleep
    cases sleep

variable [Fintype T]

/-- The number of threads that have been woken and have not yet tested the count again. -/
def Sem.woken (s : Sem T) : Nat := tally SemPc.isWoken s.pc

/-- The number of threads that have incremented the count and not yet woken another one. -/
def Sem.waking (s : Sem T) : Nat := tally SemPc.isWaking s.pc

/-- No wakeup is lost. A thread that is going to sleep already holds the lock of the channel, so a `V` that
increments the count at that time has its wakeup still ahead. -/
def Sem.NoLost (s : Sem T) : Prop :=
  ∀ t, s.pc t = .asleep ∨ s.pc t = .pSleep → s.count ≤ s.woken + s.waking

/-- The number of woken threads after a move. -/
lemma Sem.woken_goto (s : Sem T) (t : T) (b : SemPc) :
    (s.goto t b).woken + (s.pc t).isWoken.toNat = s.woken + b.isWoken.toNat :=
  tally_update ..

/-- The number of wakeups on the way after a move. -/
lemma Sem.waking_goto (s : Sem T) (t : T) (b : SemPc) :
    (s.goto t b).waking + (s.pc t).isWaking.toNat = s.waking + b.isWaking.toNat :=
  tally_update ..

/-- A step of a thread that does not sleep before or after it, where the count and the wakeups under way do
not get further apart. -/
lemma Sem.NoLost.goto (nl : s.NoLost) {a : SemPc} (h : s.pc t = a) (hb : ¬ (b = .asleep ∨ b = .pSleep))
    (le : a.isWoken.toNat + a.isWaking.toNat ≤ b.isWoken.toNat + b.isWaking.toNat) : (s.goto t b).NoLost := by
  intro u hu
  have w := s.woken_goto t b
  have k := s.waking_goto t b
  rw [h] at w k
  by_cases same : u = t
  · subst same
    rw [goto_self] at hu
    exact absurd hu hb
  · rw [goto_ne same] at hu
    have := nl u hu
    show s.count ≤ _
    omega

/-- No step loses a wakeup. -/
lemma Sem.NoLost.step (nl : s.NoLost) (inv : s.Inv) (st : SemStep s s') : s'.NoLost := by
  cases st with
  | callP h => exact nl.goto h nofun le_rfl
  | pAcquire h _ => exact nl.goto h nofun le_rfl
  | @pZero t w h z =>
    -- the thread is no longer counted, but there is nothing to take
    intro u _
    show s.count ≤ _
    omega
  | pBridge h _ => exact nl.goto h nofun le_rfl
  | pRelease h =>
    intro u _
    show s.count ≤ _
    rw [inv.zero _ (.inr h)]
    exact Int.natCast_nonneg _
  | @pSleep t h =>
    -- the thread has been counted as one that sleeps since it released `sem_lock`
    intro u _
    have w := s.woken_goto t .asleep
    have k := s.waking_goto t .asleep
    rw [h] at w k
    have := nl t (.inr h)
    show s.count ≤ ((s.goto t .asleep).woken : Int) + (s.goto t .asleep).waking
    simp only [SemPc.isWoken, SemPc.isWaking] at w k
    omega
  | @pTake t woken h _ pos =>
    intro u hu
    have w := s.woken_goto t .pTaken
    have k := s.waking_goto t .pTaken
    rw [h] at w k
    have ne : u ≠ t := by
      rintro rfl
      exact absurd hu (by simp [Sem.goto])
    have := nl u (by simpa [Sem.goto, ne] using hu)
    show s.count - 1 ≤ ((s.goto t .pTaken).woken : Int) + (s.goto t .pTaken).waking
    cases woken with
    | true =>
      simp only [SemPc.isWoken, SemPc.isWaking] at w k
      simp at w k
      omega
    | false =>
      simp only [SemPc.isWoken, SemPc.isWaking] at w k
      omega
  | pReturn h => exact nl.goto h nofun le_rfl
  | callV h => exact nl.goto h nofun le_rfl
  | vAcquire h _ => exact nl.goto h nofun le_rfl
  | @vInc t h _ _ =>
    intro u hu
    have w := s.woken_goto t .vWake
    have k := s.waking_goto t .vWake
    rw [h] at w k
    have ne : u ≠ t := by
      rintro rfl
      exact absurd hu (by simp [Sem.goto])
    have := nl u (by simpa [Sem.goto, ne] using hu)
    show s.count + 1 ≤ ((s.goto t .vWake).woken : Int) + (s.goto t .vWake).waking
    simp [SemPc.isWoken, SemPc.isWaking] at w k
    omega
  | vWake h _ => exact nl.goto h nofun le_rfl
  | @vNobody t h nil =>
    intro u hu
    have ne : u ≠ t := by
      rintro rfl
      exact absurd hu (by simp [Sem.goto])
    exact absurd (by simpa [Sem.goto, ne] using hu) (inv.nobody h nil u)
  | @vHead t u ts h cons =>
    -- one wakeup less is under way, and one more thread has been woken
    obtain ⟨ne, asleep⟩ := inv.head_asleep h cons
    intro v _
    have w := s.woken_goto t .vDone
    have k := s.waking_goto t .vDone
    have w' := (s.goto t .vDone).woken_goto u (.pEnter true)
    have k' := (s.goto t .vDone).waking_goto u (.pEnter true)
    rw [h] at w k
    rw [Sem.goto_ne ne, asleep] at w' k'
    have := nl u (.inl asleep)
    show s.count ≤ (((s.goto t .vDone).goto u (.pEnter true)).woken : Int) +
      ((s.goto t .vDone).goto u (.pEnter true)).waking
    simp [SemPc.isWoken, SemPc.isWaking] at w k w' k'
    omega
  | vReturn h => exact nl.goto h nofun le_rfl

/-- What holds of a semaphore at any time: the count is the initial one with the increments and decrements made
so far and is not negative, so the assertions of `P` and `V` hold; a `P` has returned to a thread at most as often as
the thread has made a decrement; and while a thread is asleep, the count is at most the number of threads that
have been woken and have not yet tested it again. The last does not count a `V` in the middle of its critical
section, which is the one that holds `sem_lock`. -/
structure Sem.Safe (initial : Nat) (s : Sem T) : Prop where
  balance : s.count = initial + s.incs - s.decs
  nonneg : 0 ≤ s.count
  own : ∀ t, s.took t = s.returned t + if s.pc t = .pTaken then 1 else 0
  total : s.decs = ∑ t, s.took t
  wakeups : (∀ u, (s.pc u).isWaking = false) → ∀ t ∈ s.wchan, s.count ≤ s.woken
  wakeup : ∀ t ∈ s.wchan, s.count ≤ s.woken + s.waking
  within : ∀ u, (s.pc u).isWaking = true → s.semLock = some u

/-- The decrements are those that the threads have made. -/
lemma SemStep.total (st : SemStep s s') (h : s.decs = ∑ t, s.took t) : s'.decs = ∑ t, s'.took t := by
  cases st with
  | @pTake t _ _ _ _ =>
    have sum := sum_update_add s.took t (s.took t + 1)
    show s.decs + 1 = ∑ u, Function.update s.took t (s.took t + 1) u
    omega
  | callP | pAcquire | pZero | pBridge | pRelease | pSleep | pReturn | callV | vAcquire | vInc | vWake
  | vNobody | vHead | vReturn => exact h

/-- Semaphores are safe and lose no wakeup, for any number of threads and any interleaving. -/
theorem semaphore_safe {initial : Nat} {s : Sem T} (run : Relation.ReflTransGen SemStep (semCreate initial) s) :
    s.Safe initial := by
  have inv : s.Inv ∧ s.Counted initial ∧ s.NoLost ∧ s.decs = ∑ t, s.took t := by
    induction run with
    | refl =>
      refine ⟨⟨fun _ => iff_of_false nofun nofun, fun _ => iff_of_false nofun nofun,
        fun _ => iff_of_false nofun nofun, List.nodup_nil, fun _ h => ?_⟩,
        ⟨?_, Int.natCast_nonneg _, fun _ => rfl⟩, fun _ h => ?_, ?_⟩
      · exact absurd h nofun
      · simp [semCreate]
      · exact absurd h nofun
      · simp [semCreate]
    | tail _ st ih =>
      obtain ⟨inv, ct, nl, total⟩ := ih
      exact ⟨inv.step st, ct.step inv st, nl.step inv st, st.total total⟩
  obtain ⟨inv, ct, nl, total⟩ := inv
  have wakeup : ∀ t ∈ s.wchan, s.count ≤ s.woken + s.waking :=
    fun t h => nl t (.inl ((inv.queue t).1 h))
  refine ⟨ct.balance, ct.nonneg, ct.own, total, ?_, wakeup, ?_⟩
  · intro quiet t h
    have none : s.waking = 0 := by
      simp [Sem.waking, tally, quiet]
    have := wakeup t h
    omega
  · intro u h
    refine (inv.sem u).1 ?_
    cases pc : s.pc u <;> rw [pc] at h <;> first | rfl | cases h

/-- A thread finds the count at zero and sleeps, another one calls `V`, and the first one returns from `P`. -/
theorem semaphore_safe_wakeup : ∃ s s' : Sem (Fin 2),
    s.wchan = [0] ∧ s.count = 0 ∧ s.Safe 0 ∧ s'.wchan = [] ∧ s'.returned 0 = 1 ∧ s'.incs = 1 ∧ s'.Safe 0 := by
  have create : Relation.ReflTransGen SemStep (semCreate 0) (semCreate 0 : Sem (Fin 2)) := .refl
  have sleeps := (((((create.tail (.callP (t := 0) rfl)).tail (.pAcquire (t := 0) rfl rfl)).tail
    (.pZero (t := 0) rfl rfl)).tail (.pBridge (t := 0) rfl rfl)).tail (.pRelease (t := 0) rfl)).tail
    (.pSleep (t := 0) rfl)
  have wakes := (((((sleeps.tail (.callV (t := 1) rfl)).tail (.vAcquire (t := 1) rfl rfl)).tail
    (.vInc (t := 1) rfl (by decide) (by decide))).tail (.vWake (t := 1) rfl rfl)).tail
    (.vHead (t := 1) rfl rfl)).tail (.vReturn (t := 1) rfl)
  have returns := ((wakes.tail (.pAcquire (t := 0) rfl rfl)).tail
    (.pTake (t := 0) rfl (by decide) (by decide))).tail (.pReturn (t := 0) rfl)
  exact ⟨_, _, rfl, rfl, semaphore_safe sleeps, rfl, rfl, rfl, semaphore_safe returns⟩

end PDS.Kern
