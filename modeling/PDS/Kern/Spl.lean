import PDS.Kern.Machine

/-!
# Interrupt priority levels and spinlocks

Port of `kern/thread/spl.c` and of `spinlock_acquire` and `spinlock_release` in `kern/thread/spinlock.c`, after `curcpu`
exists, for any number of CPUs that share their spinlocks. Each CPU runs one thread; the spl code touches only the
fields of this thread and the interrupt flag of the CPU, so a call of it is one step. A thread in one of the spinlock
functions stops between the accesses to the lock (`SpinPc`), and any CPU may make the next step (`SpinStep`). A test of
the lock word that fails is no step.
-/

namespace PDS.Kern

/-- All interrupts are on (C `IPL_NONE`). -/
def iplNone : Int := 0

/-- All interrupts are off (C `IPL_HIGH`). -/
def iplHigh : Int := 1

/-- The fields of a thread that count the reasons for interrupts to be off, and the interrupt flag of its CPU. -/
structure SplThread where
  curspl : Int
  iplhighCount : Int
  irqOn : Bool
deriving DecidableEq, Repr

/-- Raise the interrupt priority level (C `splraise`). -/
def splraise (cur : SplThread) (oldspl newspl : Int) : Except Halt SplThread := do
  kassert (oldspl = iplNone) "oldspl == IPL_NONE"
  kassert (newspl = iplHigh) "newspl == IPL_HIGH"
  let irqOn := if cur.iplhighCount = 0 then false else cur.irqOn
  return { cur with iplhighCount := cur.iplhighCount + 1, irqOn }

/-- Lower the interrupt priority level (C `spllower`). -/
def spllower (cur : SplThread) (oldspl newspl : Int) : Except Halt SplThread := do
  kassert (oldspl = iplHigh) "oldspl == IPL_HIGH"
  kassert (newspl = iplNone) "newspl == IPL_NONE"
  let irqOn := if cur.iplhighCount - 1 = 0 then true else cur.irqOn
  return { cur with iplhighCount := cur.iplhighCount - 1, irqOn }

/-- Disable or enable interrupts; the result is the old level (C `splx`). -/
def splx (cur : SplThread) (spl : Int) : Except Halt (Int × SplThread) :=
  if cur.curspl < spl then do
    let t ← splraise cur cur.curspl spl
    return (cur.curspl, { t with curspl := spl })
  else if cur.curspl > spl then do
    let t ← spllower { cur with curspl := spl } cur.curspl spl
    return (cur.curspl, t)
  else return (spl, cur)

/-- C `spl0`. -/
def spl0 (cur : SplThread) : Except Halt (Int × SplThread) := splx cur iplNone

/-- C `splhigh`. -/
def splhigh (cur : SplThread) : Except Halt (Int × SplThread) := splx cur iplHigh

/-- A new thread (C `thread_create`). -/
def threadCreate : SplThread := ⟨iplHigh, 1, false⟩

/-- A thread that comes out holding the lock of a run queue (C `thread_fork`). -/
def threadFork : SplThread := { threadCreate with iplhighCount := threadCreate.iplhighCount + 1 }

/-- Where a thread is in `spinlock_acquire` or `spinlock_release`. -/
inductive SpinPc (L : Type) where
  /-- in neither of them -/
  | out
  /-- before a test of the lock word -/
  | spin (l : L)
  /-- before the holder is set -/
  | take (l : L)
  /-- before the lock word is cleared -/
  | clear (l : L)
  /-- before `spllower` -/
  | lower
deriving DecidableEq

/-- The spinlock functions turn interrupts off on their way in, and on again on their way out. -/
def SpinPc.reason {L : Type} : SpinPc L → Nat
  | out => 0
  | _ => 1

/-- The lock that has no holder yet, or no holder any more, although it is taken. -/
def SpinPc.lock {L : Type} : SpinPc L → Option L
  | take l => some l
  | clear l => some l
  | _ => none

/-- The CPUs `C` and the spinlocks `L`. -/
structure Spins (C L : Type) where
  thread : C → SplThread
  pc : C → SpinPc L
  /-- C `lk_lock` -/
  word : L → Bool
  /-- C `lk_holder` -/
  holder : L → Option C
  /-- the levels that the spl calls have returned -/
  saved : C → List Int

variable {C L : Type}

/-- The locks that a CPU holds. -/
def Spins.held (s : Spins C L) (c : C) : Set L := { l | s.holder l = some c }

/-- The CPU `c` goes on to `pc`. -/
def Spins.goto [DecidableEq C] (s : Spins C L) (c : C) (pc : SpinPc L) : Spins C L :=
  { s with pc := Function.update s.pc c pc }

/-- The thread of the CPU `c` changes. -/
def Spins.setThread [DecidableEq C] (s : Spins C L) (c : C) (t : SplThread) : Spins C L :=
  { s with thread := Function.update s.thread c t }

/-- The word of the lock `l` changes. -/
def Spins.setWord [DecidableEq L] (s : Spins C L) (l : L) (b : Bool) : Spins C L :=
  { s with word := Function.update s.word l b }

/-- The holder of the lock `l` changes. -/
def Spins.setHolder [DecidableEq L] (s : Spins C L) (l : L) (h : Option C) : Spins C L :=
  { s with holder := Function.update s.holder l h }

/-- A spl call has returned the level `ret`. -/
def Spins.save [DecidableEq C] (s : Spins C L) (c : C) (ret : Int) : Spins C L :=
  { s with saved := Function.update s.saved c (ret :: s.saved c) }

/-- One step of a CPU. -/
inductive SpinStep [DecidableEq C] [DecidableEq L] : Spins C L → Spins C L → Prop where
  /-- `splx`, `spl0` or `splhigh` -/
  | spl {s c spl ret t} : s.pc c = .out → spl = iplNone ∨ spl = iplHigh ∨ spl ∈ s.saved c →
    splx (s.thread c) spl = .ok (ret, t) →
    SpinStep s ((s.setThread c t).save c ret)
  /-- `splraise` at the start of `spinlock_acquire`, for a lock that this CPU does not hold -/
  | acquire {s c l t} : s.pc c = .out → s.holder l ≠ some c → splraise (s.thread c) iplNone iplHigh = .ok t →
    SpinStep s ((s.setThread c t).goto c (.spin l))
  /-- the test-and-set that finds the lock free -/
  | testAndSet {s c l} : s.pc c = .spin l → s.word l = false →
    SpinStep s ((s.goto c (.take l)).setWord l true)
  /-- `lk->lk_holder = mycpu` -/
  | take {s c l} : s.pc c = .take l →
    SpinStep s ((s.goto c .out).setHolder l (some c))
  /-- `lk->lk_holder = NULL` at the start of `spinlock_release`, for a lock that this CPU holds -/
  | release {s c l} : s.pc c = .out → s.holder l = some c →
    SpinStep s ((s.goto c (.clear l)).setHolder l none)
  /-- the lock word is cleared -/
  | clear {s c l} : s.pc c = .clear l →
    SpinStep s ((s.goto c .lower).setWord l false)
  /-- `spllower` at the end of `spinlock_release` -/
  | lower {s c t} : s.pc c = .lower → spllower (s.thread c) iplHigh iplNone = .ok t →
    SpinStep s ((s.setThread c t).goto c .out)

/-- Each CPU runs a new thread, which holds no lock or that of a run queue. -/
structure Spins.Start (s : Spins C L) : Prop where
  pc : ∀ c, s.pc c = .out
  word : ∀ l, s.word l = (s.holder l).isSome
  thread : ∀ c, s.held c = ∅ ∧ s.thread c = threadCreate ∨ ∃ l, s.held c = {l} ∧ s.thread c = threadFork
  saved : ∀ c, s.saved c = []

/-- The states of the runs. -/
inductive SpinReach [DecidableEq C] [DecidableEq L] : Spins C L → Prop where
  | start {s} : s.Start → SpinReach s
  | step {s s'} : SpinReach s → SpinStep s s' → SpinReach s'

/-- A thread has `n` reasons for interrupts to be off besides its level. -/
structure SplThread.Balanced (t : SplThread) (n : Nat) : Prop where
  level : t.curspl = iplNone ∨ t.curspl = iplHigh
  count : t.iplhighCount = n + if t.curspl = iplHigh then 1 else 0
  irq : t.irqOn = true ↔ t.iplhighCount = 0

section

variable {t t' : SplThread} {n : Nat} {spl ret : Int}

/-- The count of raises is never negative. -/
lemma SplThread.Balanced.nonneg (h : t.Balanced n) : 0 ≤ t.iplhighCount := by
  rw [h.count]
  split_ifs <;> omega

/-- Interrupts are off after one more reason. -/
lemma SplThread.Balanced.raise (h : t.Balanced n) :
    ∃ t', splraise t iplNone iplHigh = .ok t' ∧ t'.curspl = t.curspl ∧ t'.iplhighCount = t.iplhighCount + 1 ∧
      t'.irqOn = false := by
  refine ⟨_, rfl, rfl, rfl, ?_⟩
  by_cases zero : t.iplhighCount = 0
  · exact if_pos zero
  · dsimp only
    rw [if_neg zero]
    exact Bool.eq_false_iff.2 (fun on => zero (h.irq.1 on))

/-- Interrupts are on again after the last reason is gone. -/
lemma spllower_eq (off : t.irqOn = false) :
    ∃ t', spllower t iplHigh iplNone = .ok t' ∧ t'.curspl = t.curspl ∧ t'.iplhighCount = t.iplhighCount - 1 ∧
      (t'.irqOn = true ↔ t'.iplhighCount = 0) := by
  refine ⟨_, rfl, rfl, rfl, ?_⟩
  by_cases last : t.iplhighCount - 1 = 0
  · dsimp only
    rw [if_pos last]
    exact iff_of_true rfl last
  · dsimp only
    rw [if_neg last, off]
    exact iff_of_false nofun last

/-- `splraise` goes one level up. -/
lemma SplThread.Balanced.splraise (h : t.Balanced n) :
    ∃ t', splraise t iplNone iplHigh = .ok t' ∧ t'.Balanced (n + 1) := by
  obtain ⟨t', run, level, count, off⟩ := h.raise
  have nonneg := h.nonneg
  refine ⟨t', run, ?_, ?_, ?_⟩
  · rw [level]
    exact h.level
  · rw [count, level, h.count, Nat.cast_add, Nat.cast_one]
    omega
  · rw [off, count]
    exact iff_of_false nofun (by omega)

/-- `spllower` goes one level down, and its KASSERT holds. -/
lemma SplThread.Balanced.spllower (h : t.Balanced (n + 1)) :
    0 < t.iplhighCount ∧ ∃ t', spllower t iplHigh iplNone = .ok t' ∧ t'.Balanced n := by
  have pos : 0 < t.iplhighCount := by
    rw [h.count, Nat.cast_add, Nat.cast_one]
    split_ifs <;> omega
  have off : t.irqOn = false := Bool.eq_false_iff.2 (fun on => pos.ne' (h.irq.1 on))
  obtain ⟨t', run, level, count, irq⟩ := spllower_eq off
  refine ⟨pos, t', run, ?_, ?_, irq⟩
  · rw [level]
    exact h.level
  · rw [count, level, h.count, Nat.cast_add, Nat.cast_one]
    omega

/-- A call of `splx` with a level returns the old one. -/
lemma SplThread.Balanced.splx (h : t.Balanced n) (level : spl = iplNone ∨ spl = iplHigh) :
    ∃ t', splx t spl = .ok (t.curspl, t') ∧ t'.Balanced n := by
  have nonneg := h.nonneg
  have count := h.count
  obtain low | high := h.level
  · rw [low, if_neg (by decide)] at count
    obtain rfl | rfl := level
    · refine ⟨t, ?_, h⟩
      rw [Kern.splx, low]
      rfl
    · obtain ⟨t', run, -, count', off⟩ := h.raise
      refine ⟨{ t' with curspl := iplHigh }, ?_, .inr rfl, ?_, ?_⟩
      · rw [Kern.splx, low, if_pos (by decide), run]
        rfl
      · rw [if_pos rfl, count', count]
        rfl
      · rw [off, count']
        exact iff_of_false nofun (by omega)
  · rw [high, if_pos rfl] at count
    have off : t.irqOn = false := Bool.eq_false_iff.2 (fun on => absurd (h.irq.1 on) (by omega))
    obtain rfl | rfl := level
    · have off' : ({ t with curspl := iplNone } : SplThread).irqOn = false := off
      obtain ⟨t', run, level', count', irq⟩ := spllower_eq off'
      refine ⟨t', ?_, .inl level', ?_, irq⟩
      · rw [Kern.splx, high, if_neg (by decide), if_pos (by decide), run]
        rfl
      · have low : ¬ iplNone = iplHigh := by decide
        rw [level', if_neg low, count']
        show t.iplhighCount - 1 = _
        omega
    · refine ⟨t, ?_, h⟩
      rw [Kern.splx, high]
      rfl

/-- A new thread holds nothing. -/
lemma threadCreate_balanced : threadCreate.Balanced 0 := ⟨.inr rfl, rfl, iff_of_false nofun nofun⟩

/-- A forked thread starts with one level, released by `thread_startup`. -/
lemma threadFork_balanced : threadFork.Balanced 1 := ⟨.inr rfl, rfl, iff_of_false nofun nofun⟩

end

/-- The lock is taken by the CPU. -/
def Spins.Owns (s : Spins C L) (c : C) (l : L) : Prop := s.holder l = some c ∨ (s.pc c).lock = some l

/-- The reasons of a CPU for interrupts to be off, besides its level. -/
noncomputable def Spins.raised (s : Spins C L) (c : C) : Nat := (s.held c).ncard + (s.pc c).reason

/-- The invariant of the locks. -/
structure Spins.Locks (s : Spins C L) : Prop where
  word : ∀ l, s.word l = true ↔ ∃ c, s.Owns c l
  one : ∀ {c d l}, s.Owns c l → s.Owns d l → c = d
  free : ∀ {c l}, (s.pc c).lock = some l → s.holder l = none
  finite : ∀ c, (s.held c).Finite

/-- The invariant of the runs. -/
structure Spins.Inv (s : Spins C L) : Prop where
  locks : s.Locks
  thread : ∀ c, (s.thread c).Balanced (s.raised c)
  saved : ∀ c, ∀ spl ∈ s.saved c, spl = iplNone ∨ spl = iplHigh

section

variable {s s' : Spins C L} {c d : C} {l : L} {a : SpinPc L} {t : SplThread}

/-- The raises of a CPU, in terms of the point it has reached. -/
lemma Spins.raised_eq (pc : s.pc c = a) : s.raised c = (s.held c).ncard + a.reason := by
  rw [raised, pc]

/-- The invariant holds at the start. -/
lemma Spins.Start.inv (start : s.Start) : s.Inv := by
  have idle (c : C) : (s.pc c).lock = none := by
    rw [start.pc c]
    rfl
  have owns (c : C) (l : L) : s.Owns c l ↔ s.holder l = some c := by
    rw [Spins.Owns, idle c]
    exact or_iff_left nofun
  refine ⟨⟨?_, ?_, ?_, ?_⟩, ?_, ?_⟩
  · intro l
    rw [start.word l, Option.isSome_iff_exists]
    exact exists_congr fun c => (owns c l).symm
  · intro c d l own own'
    exact Option.some.inj (((owns c l).1 own).symm.trans ((owns d l).1 own'))
  · intro c l transit
    rw [idle c] at transit
    cases transit
  · intro c
    obtain ⟨none, -⟩ | ⟨l, one, -⟩ := start.thread c
    · rw [none]
      exact Set.finite_empty
    · rw [one]
      exact Set.finite_singleton l
  · intro c
    rw [Spins.raised_eq (start.pc c)]
    obtain ⟨none, new⟩ | ⟨l, one, fork⟩ := start.thread c
    · rw [none, new, Set.ncard_empty]
      exact threadCreate_balanced
    · rw [one, fork, Set.ncard_singleton]
      exact threadFork_balanced
  · intro c spl mem
    rw [start.saved c] at mem
    cases mem

/-- Neither the locks nor those who take them change. -/
lemma Spins.Locks.same (h : s.Locks) (word : s'.word = s.word) (holder : s'.holder = s.holder)
    (transit : ∀ d, (s'.pc d).lock = (s.pc d).lock) : s'.Locks := by
  have owns (d : C) (l : L) : s'.Owns d l ↔ s.Owns d l := by
    rw [Spins.Owns, Spins.Owns, holder, transit]
  refine ⟨?_, ?_, ?_, ?_⟩
  · intro l
    rw [word, h.word l]
    exact exists_congr fun d => (owns d l).symm
  · intro c d l own own'
    exact h.one ((owns c l).1 own) ((owns d l).1 own')
  · intro d l some
    rw [transit] at some
    rw [holder]
    exact h.free some
  · intro d
    rw [Spins.held, holder]
    exact h.finite d

variable [DecidableEq C]

/-- The CPU that moves. -/
@[simp] lemma Spins.goto_self (s : Spins C L) (c : C) (a : SpinPc L) : (s.goto c a).pc c = a := Function.update_self ..

/-- The CPUs that do not. -/
lemma Spins.goto_ne (ne : d ≠ c) : (s.goto c a).pc d = s.pc d := Function.update_of_ne ne ..

/-- The thread that is changed. -/
lemma Spins.setThread_self : (s.setThread c t).thread c = t := Function.update_self ..

/-- The threads that are not. -/
lemma Spins.setThread_ne (ne : d ≠ c) : (s.setThread c t).thread d = s.thread d := Function.update_of_ne ne ..

/-- A move within one acquisition keeps everyone's lock. -/
lemma Spins.lock_goto (same : a.lock = (s.pc c).lock) (d : C) : ((s.goto c a).pc d).lock = (s.pc d).lock := by
  by_cases e : d = c
  · rw [e, goto_self, same]
  · rw [goto_ne e]

/-- The thread of the CPU `c` changes its count as its reasons change. -/
lemma Spins.Inv.setThread (inv : s.Inv) (lock : a.lock = (s.pc c).lock)
    (balanced : t.Balanced ((s.held c).ncard + a.reason)) : Spins.Inv ((s.setThread c t).goto c a) := by
  refine ⟨inv.locks.same rfl rfl (Spins.lock_goto lock), ?_, inv.saved⟩
  intro d
  by_cases same : d = c
  · subst same
    rw [Spins.raised_eq (Spins.goto_self ..)]
    rw [show ((s.setThread d t).goto d a).thread d = t from Spins.setThread_self]
    exact balanced
  · rw [Spins.raised_eq (Spins.goto_ne same)]
    rw [show ((s.setThread c t).goto c a).thread d = s.thread d from Spins.setThread_ne same]
    exact inv.thread d

variable [DecidableEq L]

/-- Those who take the lock `l` change, when the CPU `c` goes on to `a`. -/
lemma Spins.owns_setHolder {h : Option C} {l' : L} : ((s.goto c a).setHolder l h).Owns d l' ↔
    (if l' = l then h else s.holder l') = some d ∨ (if d = c then a else s.pc d).lock = some l' := by
  rw [Spins.Owns, Spins.setHolder, Spins.goto]
  dsimp only
  rw [Function.update_apply, Function.update_apply]

/-- Owners after the word of a lock is written. -/
lemma Spins.owns_setWord {b : Bool} {l' : L} : ((s.goto c a).setWord l b).Owns d l' ↔
    s.holder l' = some d ∨ (if d = c then a else s.pc d).lock = some l' := by
  rw [Spins.Owns, Spins.setWord, Spins.goto]
  dsimp only
  rw [Function.update_apply]

/-- A free lock is taken. -/
lemma Spins.Locks.testAndSet (h : s.Locks) (idle : (s.pc c).lock = none) (free : s.word l = false) :
    ((s.goto c (.take l)).setWord l true).Locks := by
  have unowned (d : C) : ¬ s.Owns d l := by
    intro own
    rw [(h.word l).2 ⟨d, own⟩] at free
    cases free
  have owns (d : C) (l' : L) : ((s.goto c (.take l)).setWord l true).Owns d l' ↔ s.Owns d l' ∨ d = c ∧ l' = l := by
    rw [Spins.owns_setWord, Spins.Owns]
    by_cases same : d = c
    · subst same
      rw [if_pos rfl, idle, show (SpinPc.take l).lock = some l from rfl]
      simp [eq_comm]
    · simp [same]
  refine ⟨?_, ?_, ?_, h.finite⟩
  · intro l'
    by_cases same : l' = l
    · subst same
      exact iff_of_true (Function.update_self ..) ⟨c, (owns c l').2 (.inr ⟨rfl, rfl⟩)⟩
    · rw [show ((s.goto c (.take l)).setWord l true).word l' = s.word l' from Function.update_of_ne same .., h.word l']
      exact exists_congr fun d => by simp [owns, same]
  · intro d e l' own own'
    obtain old | ⟨rfl, rfl⟩ := (owns d l').1 own
    · obtain old' | ⟨rfl, rfl⟩ := (owns e l').1 own'
      · exact h.one old old'
      · exact absurd old (unowned d)
    · obtain old' | ⟨rfl, -⟩ := (owns e l').1 own'
      · exact absurd old' (unowned e)
      · rfl
  · intro d l' transit
    show s.holder l' = none
    by_cases same : d = c
    · subst same
      rw [show ((s.goto d (.take l)).setWord l true).pc d = .take l from Spins.goto_self ..] at transit
      cases transit
      rw [Option.eq_none_iff_forall_ne_some]
      exact fun e held => unowned e (.inl held)
    · rw [show ((s.goto c (.take l)).setWord l true).pc d = s.pc d from Spins.goto_ne same] at transit
      exact h.free transit

/-- The lock that is taken is set free. -/
lemma Spins.Locks.clear (h : s.Locks) (transit : (s.pc c).lock = some l) :
    ((s.goto c .lower).setWord l false).Locks := by
  have mine : s.Owns c l := .inr transit
  have owns (d : C) (l' : L) : ((s.goto c .lower).setWord l false).Owns d l' ↔ s.Owns d l' ∧ l' ≠ l := by
    rw [Spins.owns_setWord]
    constructor
    · intro own
      have old : s.Owns d l' := by
        obtain held | moving := own
        · exact .inl held
        · by_cases same : d = c
          · rw [if_pos same] at moving
            cases moving
          · rw [if_neg same] at moving
            exact .inr moving
      refine ⟨old, ?_⟩
      rintro rfl
      obtain rfl := h.one old mine
      rw [h.free transit, if_pos rfl] at own
      obtain own | own := own
      · cases own
      · cases own
    · rintro ⟨held | moving, ne⟩
      · exact .inl held
      · refine .inr ?_
        have other : d ≠ c := by
          rintro rfl
          exact ne (Option.some.inj (moving.symm.trans transit))
        rw [if_neg other]
        exact moving
  refine ⟨?_, ?_, ?_, h.finite⟩
  · intro l'
    by_cases same : l' = l
    · subst same
      rw [show ((s.goto c .lower).setWord l' false).word l' = false from Function.update_self ..]
      refine iff_of_false nofun ?_
      rintro ⟨d, own⟩
      exact ((owns d l').1 own).2 rfl
    · rw [show ((s.goto c .lower).setWord l false).word l' = s.word l' from Function.update_of_ne same .., h.word l']
      exact exists_congr fun d => by simp [owns, same]
  · intro d e l' own own'
    exact h.one ((owns d l').1 own).1 ((owns e l').1 own').1
  · intro d l' some
    show s.holder l' = none
    by_cases same : d = c
    · subst same
      rw [show ((s.goto d .lower).setWord l false).pc d = .lower from Spins.goto_self ..] at some
      cases some
    · rw [show ((s.goto c .lower).setWord l false).pc d = s.pc d from Spins.goto_ne same] at some
      exact h.free some

/-- The holder of a lock is set or cleared, by the CPU that has taken it. -/
lemma Spins.Locks.setHolder (h : s.Locks) {x : Option C}
    (owns : ∀ d l', ((s.goto c a).setHolder l x).Owns d l' ↔ s.Owns d l')
    (free : ∀ d l', (((s.goto c a).setHolder l x).pc d).lock = some l' →
      ((s.goto c a).setHolder l x).holder l' = none)
    (finite : ∀ d, (((s.goto c a).setHolder l x).held d).Finite) : ((s.goto c a).setHolder l x).Locks := by
  refine ⟨?_, ?_, free _ _, finite⟩
  · intro l'
    exact (h.word l').trans (exists_congr fun d => (owns d l').symm)
  · intro d e l' own own'
    exact h.one ((owns d l').1 own) ((owns e l').1 own')

/-- The locks a CPU holds after a holder is written. -/
lemma Spins.mem_held_setHolder {x : Option C} {l' : L} :
    l' ∈ ((s.goto c a).setHolder l x).held d ↔ (if l' = l then x else s.holder l') = some d := by
  rw [Spins.held, Set.mem_ofPred_eq, Spins.setHolder, Spins.goto]
  dsimp only
  rw [Function.update_apply]

/-- The lock that is taken gets its holder. -/
lemma Spins.Inv.take (inv : s.Inv) (transit : s.pc c = .take l) : ((s.goto c .out).setHolder l (some c)).Inv := by
  have lock : (s.pc c).lock = some l := by
    rw [transit]
    rfl
  have none := inv.locks.free lock
  have own : ((s.goto c .out).setHolder l (some c)).held c = insert l (s.held c) := by
    ext l'
    rw [Spins.mem_held_setHolder, Set.mem_insert_iff]
    split_ifs with same
    · exact iff_of_true rfl (.inl same)
    · exact (or_iff_right same).symm
  have others (d : C) (ne : d ≠ c) : ((s.goto c .out).setHolder l (some c)).held d = s.held d := by
    ext l'
    rw [Spins.mem_held_setHolder]
    split_ifs with same
    · rw [Spins.held, Set.mem_ofPred_eq, same, none]
      exact iff_of_false (fun e => ne (Option.some.inj e).symm) nofun
    · rfl
  refine ⟨inv.locks.setHolder ?_ ?_ ?_, ?_, inv.saved⟩
  · intro d l'
    rw [Spins.owns_setHolder, Spins.Owns]
    split_ifs with here mine mine
    · rw [mine, lock, here]
      exact iff_of_true (.inl rfl) (.inr rfl)
    · rw [here, none]
      exact or_congr_left (iff_of_false (fun e => mine (Option.some.inj e).symm) nofun)
    · rw [mine, lock]
      exact or_congr_right (iff_of_false nofun (fun e => here (Option.some.inj e).symm))
    · rfl
  · intro d l' moving
    by_cases same : d = c
    · rw [same, show ((s.goto c .out).setHolder l (some c)).pc c = .out from Spins.goto_self ..] at moving
      cases moving
    · rw [show ((s.goto c .out).setHolder l (some c)).pc d = s.pc d from Spins.goto_ne same] at moving
      have ne : l' ≠ l := by
        rintro rfl
        exact same (inv.locks.one (.inr moving) (.inr lock))
      rw [show ((s.goto c .out).setHolder l (some c)).holder l' = s.holder l' from Function.update_of_ne ne ..]
      exact inv.locks.free moving
  · intro d
    by_cases same : d = c
    · rw [same, own]
      exact (inv.locks.finite c).insert l
    · rw [others d same]
      exact inv.locks.finite d
  · intro d
    by_cases same : d = c
    · have balanced := inv.thread c
      have out : l ∉ s.held c := by
        rw [Spins.held, Set.mem_ofPred_eq, none]
        nofun
      rw [Spins.raised_eq transit] at balanced
      rw [same, Spins.raised_eq (show ((s.goto c .out).setHolder l (some c)).pc c = .out from Spins.goto_self ..), own,
        Set.ncard_insert_of_notMem out (inv.locks.finite c)]
      exact balanced
    · rw [Spins.raised_eq (show ((s.goto c .out).setHolder l (some c)).pc d = s.pc d from Spins.goto_ne same),
        others d same]
      exact inv.thread d

/-- The lock that is released loses its holder. -/
lemma Spins.Inv.release (inv : s.Inv) (out : s.pc c = .out) (held : s.holder l = some c) :
    ((s.goto c (.clear l)).setHolder l none).Inv := by
  have lock : (s.pc c).lock = none := by
    rw [out]
    rfl
  have own : ((s.goto c (.clear l)).setHolder l none).held c = s.held c \ {l} := by
    ext l'
    rw [Spins.mem_held_setHolder, Set.mem_sdiff, Set.mem_singleton_iff]
    split_ifs with same
    · exact iff_of_false nofun (fun h => h.2 same)
    · exact (and_iff_left same).symm
  have others (d : C) (ne : d ≠ c) : ((s.goto c (.clear l)).setHolder l none).held d = s.held d := by
    ext l'
    rw [Spins.mem_held_setHolder]
    split_ifs with same
    · rw [Spins.held, Set.mem_ofPred_eq, same, held]
      exact iff_of_false nofun (fun e => ne (Option.some.inj e).symm)
    · rfl
  refine ⟨inv.locks.setHolder ?_ ?_ ?_, ?_, inv.saved⟩
  · intro d l'
    rw [Spins.owns_setHolder, Spins.Owns]
    split_ifs with here mine mine
    · rw [mine, here]
      exact iff_of_true (.inr rfl) (.inl held)
    · rw [here, held]
      exact or_congr_left (iff_of_false nofun (fun e => mine (Option.some.inj e).symm))
    · rw [mine, lock]
      exact or_congr_right (iff_of_false (fun e => here (Option.some.inj e).symm) nofun)
    · rfl
  · intro d l' moving
    by_cases same : d = c
    · rw [same, show ((s.goto c (.clear l)).setHolder l none).pc c = .clear l from Spins.goto_self ..] at moving
      cases moving
      exact Function.update_self ..
    · rw [show ((s.goto c (.clear l)).setHolder l none).pc d = s.pc d from Spins.goto_ne same] at moving
      have free := inv.locks.free moving
      have ne : l' ≠ l := by
        rintro rfl
        rw [held] at free
        cases free
      rw [show ((s.goto c (.clear l)).setHolder l none).holder l' = s.holder l' from Function.update_of_ne ne ..]
      exact free
  · intro d
    by_cases same : d = c
    · rw [same, own]
      exact (inv.locks.finite c).sdiff
    · rw [others d same]
      exact inv.locks.finite d
  · intro d
    by_cases same : d = c
    · have balanced := inv.thread c
      rw [Spins.raised_eq out, ← Set.ncard_sdiff_singleton_add_one (show l ∈ s.held c from held) (inv.locks.finite c)]
        at balanced
      rw [same, Spins.raised_eq (show ((s.goto c (.clear l)).setHolder l none).pc c = .clear l from Spins.goto_self ..), own]
      exact balanced
    · rw [Spins.raised_eq (show ((s.goto c (.clear l)).setHolder l none).pc d = s.pc d from Spins.goto_ne same),
        others d same]
      exact inv.thread d

/-- The word of a lock changes, as the CPU goes on inside of a spinlock function. -/
lemma Spins.Inv.setWord (inv : s.Inv) {b : Bool} (locks : ((s.goto c a).setWord l b).Locks)
    (reason : a.reason = (s.pc c).reason) : ((s.goto c a).setWord l b).Inv := by
  refine ⟨locks, ?_, inv.saved⟩
  intro d
  have same : ((s.goto c a).setWord l b).raised d = s.raised d := by
    by_cases e : d = c
    · rw [e, Spins.raised_eq (show ((s.goto c a).setWord l b).pc c = a from Spins.goto_self ..), reason]
      rfl
    · rw [Spins.raised_eq (show ((s.goto c a).setWord l b).pc d = s.pc d from Spins.goto_ne e)]
      rfl
  rw [same]
  exact inv.thread d

/-- Every step keeps the invariant. -/
lemma Spins.Inv.step (inv : s.Inv) (st : SpinStep s s') : s'.Inv := by
  cases st with
  | @spl c spl ret t out level run =>
    have known : spl = iplNone ∨ spl = iplHigh := by
      obtain none | high | old := level
      · exact .inl none
      · exact .inr high
      · exact inv.saved c spl old
    obtain ⟨t', run', balanced⟩ := (inv.thread c).splx known
    rw [run] at run'
    cases run'
    refine ⟨inv.locks.same rfl rfl (fun _ => rfl), ?_, ?_⟩
    · intro d
      by_cases same : d = c
      · rw [same, show ((s.setThread c t).save c _).thread c = t from Spins.setThread_self]
        exact balanced
      · rw [show ((s.setThread c t).save c _).thread d = s.thread d from Spins.setThread_ne same]
        exact inv.thread d
    · intro d spl' mem
      by_cases same : d = c
      · rw [same, show ((s.setThread c t).save c _).saved c = _ :: s.saved c from Function.update_self ..] at mem
        obtain rfl | mem := List.mem_cons.1 mem
        · exact (inv.thread c).level
        · exact inv.saved c spl' mem
      · rw [show ((s.setThread c t).save c _).saved d = s.saved d from Function.update_of_ne same ..] at mem
        exact inv.saved d spl' mem
  | @acquire c l t out _ run =>
    obtain ⟨t', run', balanced⟩ := (inv.thread c).splraise
    rw [run] at run'
    cases run'
    rw [Spins.raised_eq out] at balanced
    exact inv.setThread (by rw [out]; rfl) balanced
  | testAndSet spin free =>
    exact inv.setWord (inv.locks.testAndSet (by rw [spin]; rfl) free) (by rw [spin]; rfl)
  | take transit => exact inv.take transit
  | release out held => exact inv.release out held
  | clear transit =>
    exact inv.setWord (inv.locks.clear (by rw [transit]; rfl)) (by rw [transit]; rfl)
  | @lower c t lower run =>
    have balanced := inv.thread c
    rw [Spins.raised_eq lower] at balanced
    obtain ⟨-, t', run', balanced⟩ := balanced.spllower
    rw [run] at run'
    cases run'
    exact inv.setThread (by rw [lower]; rfl) balanced

/-- The invariant holds in every reachable state. -/
lemma SpinReach.inv (reach : SpinReach s) : s.Inv := by
  induction reach with
  | start start => exact start.inv
  | step _ st ih => exact ih.step st

/-- The count of a thread is the number of spinlocks that it holds, and one more if its level is high, and one more inside
of a spinlock function; interrupts are on if and only if it is zero. No call fails, and none makes it negative. -/
theorem spl_accounting (reach : SpinReach s) (c : C) :
    (s.held c).Finite ∧
      (s.thread c).iplhighCount =
        (s.held c).ncard + (if (s.thread c).curspl = iplHigh then 1 else 0) + (if s.pc c = .out then 0 else 1) ∧
      ((s.thread c).irqOn = true ↔ (s.thread c).iplhighCount = 0) ∧
      (∀ spl, spl = iplNone ∨ spl = iplHigh ∨ spl ∈ s.saved c → ∃ t, splx (s.thread c) spl = .ok ((s.thread c).curspl, t)) ∧
      (∃ t, splraise (s.thread c) iplNone iplHigh = .ok t) ∧
      (s.pc c = .lower → 0 < (s.thread c).iplhighCount ∧ ∃ t, spllower (s.thread c) iplHigh iplNone = .ok t) := by
  have inv := reach.inv
  have balanced := inv.thread c
  have reason : (s.pc c).reason = if s.pc c = .out then 0 else 1 := by
    cases s.pc c with
    | out => rfl
    | _ => rfl
  refine ⟨inv.locks.finite c, ?_, balanced.irq, ?_, ?_, ?_⟩
  · rw [balanced.count, Spins.raised, reason]
    push_cast
    ring
  · intro spl level
    have known : spl = iplNone ∨ spl = iplHigh := by
      obtain none | high | old := level
      · exact .inl none
      · exact .inr high
      · exact inv.saved c spl old
    obtain ⟨t, run, -⟩ := balanced.splx known
    exact ⟨t, run⟩
  · obtain ⟨t, run, -⟩ := balanced.splraise
    exact ⟨t, run⟩
  · intro lower
    rw [Spins.raised_eq lower] at balanced
    obtain ⟨pos, t, run, -⟩ := balanced.spllower
    exact ⟨pos, t, run⟩

/-- One CPU with its first thread, and one lock. -/
def bootSpins : Spins Unit Unit := ⟨fun _ => threadCreate, fun _ => .out, fun _ => false, fun _ => none, fun _ => []⟩

/-- One CPU with its locks free is a start. -/
lemma bootSpins_start : bootSpins.Start := by
  refine ⟨fun _ => rfl, fun _ => rfl, fun _ => .inl ⟨?_, rfl⟩, fun _ => rfl⟩
  ext l
  exact iff_of_false nofun nofun

/-- The accounting at a CPU that spins for its first lock. -/
theorem spl_accounting_boot : ∃ s : Spins Unit Unit, s.pc () = .spin () ∧
    (s.thread ()).iplhighCount =
      (s.held ()).ncard + (if (s.thread ()).curspl = iplHigh then 1 else 0) + (if s.pc () = .out then 0 else 1) := by
  have reach := (SpinReach.start bootSpins_start).step (.acquire (c := ()) (l := ()) rfl nofun rfl)
  exact ⟨_, rfl, (spl_accounting reach ()).2.1⟩

end

end PDS.Kern
