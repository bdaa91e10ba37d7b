import PDS.Kern.Trap

/-!
# The interrupt state is accounted for

The invariant of the system of `Trap.lean`: the interrupt state of every thread is what its stack says (`Fits`), where
what the stack may look like depends on what the CPU is doing (`Seat`). A thread that is on no CPU is in `thread_switch`,
with one spinlock to release.
-/

namespace PDS.Kern
open TrapSys

/-- The saved levels are those that calls of `splhigh` have returned. -/
def SavedOk (base : Int) : List Int → Prop
  | [] => True
  | spl :: saved => spl = splAt base saved ∧ SavedOk base saved

/-- What holds of a level because of the way it has been entered. -/
def TrapLevel.Entered (ℓ : TrapLevel) (ls : List TrapLevel) : Prop :=
  match ℓ.entry with
  | .thread => True
  | .user => ls ≠ [] ∧ locksOf ls = 0 ∧ ℓ.saved = [] ∧ ℓ.locks = 0
  | .irq oldIn doadjust => ls ≠ [] ∧ locksOf ls = 0 ∧ splOf ls = iplNone ∧ doadjust = true ∧ oldIn = inIrq ls
  | .exception iep => ls ≠ [] ∧ (iep = true ↔ splOf ls = iplNone ∧ locksOf ls = 0)
  | .switch _ => False

/-- The stack of a thread outside of `thread_switch`. -/
def Plain : List TrapLevel → Prop
  | [] => True
  | ℓ :: ls => Plain ls ∧ ℓ.Entered ls ∧ SavedOk (ℓ.entry.base (splOf ls)) ℓ.saved

/-- The stack of a thread in `thread_switch`. -/
structure Parked (ℓ : TrapLevel) (ls : List TrapLevel) : Prop where
  entry : ℓ.entry = .switch (splOf ls)
  plain : Plain ls
  locks : locksOf ls = 0
  some : ls ≠ []

/-- The interrupt state `t` belongs to a thread at the level `ℓ`, with `k` more spinlocks held elsewhere. -/
structure Here (base : Int) (k : Nat) (ℓ : TrapLevel) (t : SplThread) : Prop where
  saved : SavedOk base ℓ.saved
  level : t.curspl = splAt base ℓ.saved
  balanced : t.Balanced (ℓ.locks + k)

/-- The interrupt state of a thread, while it holds `rq` locks in `thread_switch`, is that of its stack. -/
structure Fits (x : TrapThread) (irqOn : Bool) (rq : Nat) (ℓ : TrapLevel) (ls : List TrapLevel) : Prop where
  levels : x.levels = ℓ :: ls
  here : Here (ℓ.entry.base (splOf ls)) (locksOf ls + rq) ℓ ⟨x.curspl, x.iplhighCount, irqOn⟩
  inInterrupt : x.inInterrupt = inIrq (ℓ :: ls)

/-- A thread in `thread_switch`, with one spinlock to release. -/
def Away (x : TrapThread) : Prop := ∃ spl ls, Parked ⟨.switch spl, [], 0⟩ ls ∧ Fits x false 1 ⟨.switch spl, [], 0⟩ ls

/-- The thread whose stack a CPU uses, and the interrupt flag of the CPU. -/
def Seat (x : TrapThread) (irqOn : Bool) : CpuMode → Prop
  | .running => ∃ ℓ ls, Plain ls ∧ ℓ.Entered ls ∧ Fits x irqOn 0 ℓ ls
  | .exorcising => ∃ ℓ ls, Parked ℓ ls ∧ Fits x irqOn 0 ℓ ls
  | .switching | .leaving _ => irqOn = false ∧ Away x
  | .idle =>
    (∃ spl ls, Parked ⟨.switch spl, [], 0⟩ ls ∧ Fits x false 0 ⟨.switch spl, [], 0⟩ ls) ∨
      ∃ ℓ spl ls, Parked ⟨.switch spl, [], 0⟩ ls ∧ ℓ.entry = .irq (inIrq ls) false ∧
        Fits x irqOn 0 ℓ (⟨.switch spl, [], 0⟩ :: ls)

section

variable {base : Int} {k : Nat} {ℓ : TrapLevel} {ls : List TrapLevel} {t t' : SplThread} {spl old : Int}

/-- Above a raised base the level is high. -/
lemma splAt_high (saved : List Int) : splAt iplHigh saved = iplHigh := ite_self _

/-- With a saved level the current one is high. -/
lemma splAt_cons (base spl : Int) (saved : List Int) : splAt base (spl :: saved) = iplHigh :=
  if_neg (List.cons_ne_nil _ _)

/-- After `splx` the level is the one asked for. -/
lemma splx_curspl (e : splx t spl = .ok (old, t')) : t'.curspl = spl := by
  rw [splx] at e
  split_ifs at e with lt gt
  · obtain ⟨x, -, e⟩ := bind_ok_iff.1 e
    cases e
    rfl
  · obtain ⟨x, lower, e⟩ := bind_ok_iff.1 e
    cases e
    simp only [spllower, bind_ok_iff] at lower
    obtain ⟨-, -, -, -, lower⟩ := lower
    cases lower
    rfl
  · cases e
    exact le_antisymm (not_lt.1 gt) (not_lt.1 lt)

/-- A spinlock does not touch `t_curspl`. -/
lemma spinlockAcquire_curspl (e : spinlockAcquire t = .ok t') : t'.curspl = t.curspl := by
  simp only [spinlockAcquire, splraise, bind_ok_iff] at e
  obtain ⟨-, -, -, -, e⟩ := e
  cases e
  rfl

/-- Nor does its release. -/
lemma spinlockRelease_curspl (e : spinlockRelease t = .ok t') : t'.curspl = t.curspl := by
  simp only [spinlockRelease, spllower, bind_ok_iff] at e
  obtain ⟨-, -, -, -, e⟩ := e
  cases e
  rfl

/-- Interrupts are off at the high level. -/
lemma SplThread.Balanced.dark (h : t.Balanced k) (high : t.curspl = iplHigh) : t.irqOn = false := by
  have count := h.count
  rw [if_pos high] at count
  exact Bool.eq_false_iff.2 fun on => absurd (h.irq.1 on) (by omega)

/-- Interrupts are on at the low level when no spinlock is held. -/
lemma SplThread.Balanced.on_iff (h : t.Balanced k) : t.irqOn = true ↔ t.curspl = iplNone ∧ k = 0 := by
  rw [h.irq, h.count]
  obtain low | high := h.level
  · rw [low, if_neg (by decide)]
    simp
  · rw [high, if_pos rfl]
    exact iff_of_false (by omega) fun both => absurd both.1 (by decide)

namespace Here

/-- `splhigh` saves the level it replaces. -/
lemma splhigh (here : Here base k ℓ t) :
    ∃ t', Kern.splhigh t = .ok (t.curspl, t') ∧ Here base k { ℓ with saved := t.curspl :: ℓ.saved } t' := by
  obtain ⟨t', e, balanced⟩ := here.balanced.splx (.inr rfl)
  refine ⟨t', e, ⟨here.level, here.saved⟩, ?_, balanced⟩
  rw [splx_curspl e, splAt_cons]

/-- `splx` restores the level saved last. -/
lemma splx {saved : List Int} (here : Here base k ℓ t) (top : ℓ.saved = spl :: saved)
    (known : base = iplNone ∨ base = iplHigh) :
    ∃ t', Kern.splx t spl = .ok (t.curspl, t') ∧ Here base k { ℓ with saved } t' := by
  have ok := here.saved
  rw [top] at ok
  have level : spl = iplNone ∨ spl = iplHigh := by
    rw [ok.1, splAt]
    split_ifs
    · exact known
    · exact .inr rfl
  obtain ⟨t', e, balanced⟩ := here.balanced.splx level
  exact ⟨t', e, ok.2, (splx_curspl e).trans ok.1, balanced⟩

/-- An acquisition counts one lock more at this level. -/
lemma acquire (here : Here base k ℓ t) :
    ∃ t', spinlockAcquire t = .ok t' ∧ Here base k { ℓ with locks := ℓ.locks + 1 } t' := by
  obtain ⟨t', e, balanced⟩ := here.balanced.splraise
  refine ⟨t', e, here.saved, (spinlockAcquire_curspl e).trans here.level, ?_⟩
  have eq : ℓ.locks + 1 + k = ℓ.locks + k + 1 := Nat.add_right_comm ..
  rw [eq]
  exact balanced

/-- A release counts one lock less. -/
lemma release {n : Nat} (here : Here base k ℓ t) (held : ℓ.locks = n + 1) :
    ∃ t', spinlockRelease t = .ok t' ∧ Here base k { ℓ with locks := n } t' := by
  have balanced := here.balanced
  rw [held, Nat.add_right_comm] at balanced
  obtain ⟨-, t', e, balanced⟩ := balanced.spllower
  exact ⟨t', e, here.saved, (spinlockRelease_curspl e).trans here.level, balanced⟩

/-- One more spinlock is held elsewhere. -/
lemma lock (here : Here base k ℓ t) : ∃ t', spinlockAcquire t = .ok t' ∧ Here base (k + 1) ℓ t' := by
  obtain ⟨t', e, balanced⟩ := here.balanced.splraise
  exact ⟨t', e, here.saved, (spinlockAcquire_curspl e).trans here.level, balanced⟩

/-- One spinlock less is. -/
lemma unlock (here : Here base (k + 1) ℓ t) : ∃ t', spinlockRelease t = .ok t' ∧ Here base k ℓ t' := by
  obtain ⟨-, t', e, balanced⟩ := here.balanced.spllower
  exact ⟨t', e, here.saved, (spinlockRelease_curspl e).trans here.level, balanced⟩

/-- A new level begins. -/
lemma push {entry : TrapEntry} {base' : Int} (balanced : t.Balanced k) (level : t.curspl = base') :
    Here base' k ⟨entry, [], 0⟩ t :=
  ⟨trivial, level, by rwa [Nat.zero_add]⟩

end Here

/-- The level is none or high. -/
lemma splAt_mem (saved : List Int) (known : base = iplNone ∨ base = iplHigh) :
    splAt base saved = iplNone ∨ splAt base saved = iplHigh := by
  rw [splAt]
  split_ifs
  · exact known
  · exact .inr rfl

/-- The base of an entry is none or high. -/
lemma TrapEntry.base_mem (entry : TrapEntry) (known : base = iplNone ∨ base = iplHigh) :
    entry.base base = iplNone ∨ entry.base base = iplHigh := by
  cases entry with
  | thread | user => exact .inl rfl
  | irq | switch => exact .inr rfl
  | exception => exact known

/-- The level of a stack of frames is none or high. -/
lemma splOf_mem (ls : List TrapLevel) : splOf ls = iplNone ∨ splOf ls = iplHigh := by
  induction ls with
  | nil => exact .inl rfl
  | cons ℓ ls ih => exact splAt_mem _ (ℓ.entry.base_mem ih)

/-- So is the base of an entry over it. -/
lemma base_mem (entry : TrapEntry) (ls : List TrapLevel) :
    entry.base (splOf ls) = iplNone ∨ entry.base (splOf ls) = iplHigh := entry.base_mem (splOf_mem ls)

/-- The locks of one frame more. -/
lemma locksOf_cons (ℓ : TrapLevel) (ls : List TrapLevel) : locksOf (ℓ :: ls) = ℓ.locks + locksOf ls :=
  List.sum_cons

/-- "forcing splhigh() [...] then restoring the previous state" -/
lemma exceptionEnter_eq (h : t.Balanced k) : exceptionEnter { t with irqOn := false } = .ok t := by
  obtain ⟨curspl, count, irqOn⟩ := t
  have on := h.irq
  have level := h.level
  have eq := h.count
  dsimp only at on level eq
  obtain rfl | rfl := level
  · rw [if_neg (by decide)] at eq
    by_cases zero : count = 0
    · subst zero
      rw [on.2 rfl]
      rfl
    · rw [Bool.eq_false_iff.2 fun h => zero (on.1 h)]
      have up : (count + 1 - 1 : Int) = count := by omega
      simp [exceptionEnter, Kern.splhigh, Kern.splx, splraise, spllower, iplNone, iplHigh, zero, up, kassert_pos]
  · rw [if_pos rfl] at eq
    rw [Bool.eq_false_iff.2 fun h => absurd (on.1 h) (by omega)]
    rfl

end

section

variable {n : Nat} {s t : ThreadSys n} {c : Fin n}

/-- While no mode changes, no CPU changes its thread. -/
lemma ThreadStep.curthread (st : ThreadStep s t) (same : t.mode = s.mode) : t.curthread = s.curthread := by
  cases st with
  | fork | wakeone | wakeall | makeRunnable | yield | sleep | exit | idle | unidle | switchframe | destroy | exorcised
  | migrate | migration | migrated => rfl
  | @next c u us switching =>
    have leaving := congrFun same c
    have eq : Function.update s.mode c (.leaving (s.curthread c)) c = s.mode c := leaving
    rw [Function.update_self, switching] at eq
    cases eq

/-- What a step of `thread_switch` on a CPU leaves alone; it ends on the stack of what has been the current thread. -/
lemma ThreadStep.dispatch (st : ThreadStep s t) (changed : t.mode c ≠ s.mode c) :
    t.live = s.live ∧ (∀ d ≠ c, t.mode d = s.mode d ∧ t.stack d = s.stack d) ∧ t.stack c = s.curthread c ∧
      ((∀ u, t.mode c ≠ .leaving u) → t.curthread c = s.curthread c) := by
  -- the CPU is the one that makes the step
  have here {d : Fin n} {mode : CpuMode} (changed : Function.update s.mode d mode c ≠ s.mode c) : c = d := by
    by_contra ne
    exact changed (Function.update_of_ne ne ..)
  have stack {t' : ThreadSys n} {d : Fin n} (mode : t'.mode d = s.mode d) (cur : t'.curthread d = s.curthread d) :
      t'.stack d = s.stack d := by
    rw [ThreadSys.stack, mode, cur, ThreadSys.stack]
  have others {t' : ThreadSys n} {mode : CpuMode} (modes : t'.mode = Function.update s.mode c mode)
      (cur : ∀ d ≠ c, t'.curthread d = s.curthread d) : ∀ d ≠ c, t'.mode d = s.mode d ∧ t'.stack d = s.stack d := by
    intro d ne
    have mode : t'.mode d = s.mode d := by
      rw [modes]
      exact Function.update_of_ne ne ..
    exact ⟨mode, stack mode (cur d ne)⟩
  have own {t' : ThreadSys n} {mode : CpuMode} (modes : t'.mode = Function.update s.mode c mode)
      (cur : t'.curthread c = s.curthread c) (ne : ∀ u, mode ≠ .leaving u) : t'.stack c = s.curthread c := by
    refine (ThreadSys.stack_of_not_leaving fun u => ?_).trans cur
    rw [modes, Function.update_self]
    exact ne u
  cases st with
  | fork | wakeone | wakeall | makeRunnable | destroy | migrate | migration | migrated => exact absurd rfl changed
  | yield | sleep | exit | idle | unidle | switchframe | exorcised =>
    cases here changed
    refine ⟨rfl, others rfl fun _ _ => rfl, own rfl rfl fun u eq => ?_, fun _ => rfl⟩
    cases eq
  | next =>
    cases here changed
    have mode : Function.update s.mode c (.leaving (s.curthread c)) c = .leaving (s.curthread c) :=
      Function.update_self ..
    refine ⟨rfl, others rfl fun d ne => Function.update_of_ne ne .., ?_, fun ne => absurd mode (ne _)⟩
    simp only [ThreadSys.stack, mode]

end

/-- The interrupt state of every thread is accounted for. -/
structure TrapSys.Inv {n : Nat} (s : TrapSys n) : Prop where
  threads : s.toThreadSys.Inv
  seat : ∀ c, Seat (s.thread (s.stack c)) (s.irqOn c) (s.mode c)
  away : ∀ {t}, s.live t = true → (∀ c, s.stack c ≠ t) → Away (s.thread t)

section

variable {n : Nat} {s : TrapSys n} {t : ThreadSys n} {c : Fin n} {x : SplThread} {inInterrupt : Bool}
  {levels : List TrapLevel}

/-- Two CPUs run on two stacks. -/
lemma TrapSys.Inv.stack_ne (inv : s.Inv) {d : Fin n} (ne : d ≠ c) : s.stack d ≠ s.stack c := by
  intro same
  exact ne ((inv.threads.stack d).symm.trans (by rw [same, inv.threads.stack c]))

/-- The current thread of a CPU makes a step of its own. -/
lemma TrapSys.Inv.put (inv : s.Inv) (here : s.stack c = s.curthread c)
    (seat : Seat ⟨x.curspl, x.iplhighCount, inInterrupt, levels⟩ x.irqOn (s.mode c)) :
    (s.put c x inInterrupt levels).Inv where
  threads := inv.threads
  seat d := by
    show Seat (Function.update s.thread (s.curthread c) _ (s.stack d)) (Function.update s.irqOn c x.irqOn d) (s.mode d)
    by_cases same : d = c
    · rw [same, here, Function.update_self, Function.update_self]
      exact seat
    · have ne := inv.stack_ne same
      rw [here] at ne
      rw [Function.update_of_ne ne, Function.update_of_ne same]
      exact inv.seat d
  away {u} live off := by
    have ne : u ≠ s.curthread c := by
      rintro rfl
      exact off c here
    show Away (Function.update s.thread (s.curthread c) _ u)
    rw [Function.update_of_ne ne]
    exact inv.away live off

/-- A CPU makes a step of `thread_switch`. -/
lemma TrapSys.Inv.dispatch (inv : s.Inv) (st : ThreadStep s.toThreadSys t) (changed : t.mode c ≠ s.mode c)
    (ne : ∀ u, t.mode c ≠ .leaving u) (left : s.stack c ≠ s.curthread c → Away (s.thread (s.stack c)))
    (seat : Seat ⟨x.curspl, x.iplhighCount, inInterrupt, levels⟩ x.irqOn (t.mode c)) :
    ((s.sched t).put c x inInterrupt levels).Inv where
  threads := inv.threads.step st
  seat d := by
    obtain ⟨-, others, own, cur⟩ := st.dispatch changed
    show Seat (Function.update s.thread (t.curthread c) _ (t.stack d)) (Function.update s.irqOn c x.irqOn d) (t.mode d)
    by_cases same : d = c
    · rw [same, own, cur ne, Function.update_self, Function.update_self]
      exact seat
    · have inv' := inv.threads.step st
      have ne' : t.stack d ≠ t.curthread c := by
        intro eq
        rw [cur ne, ← own] at eq
        exact same ((inv'.stack d).symm.trans (by rw [eq, inv'.stack c]))
      rw [Function.update_of_ne ne', Function.update_of_ne same, (others d same).1, (others d same).2]
      exact inv.seat d
  away {u} live off := by
    obtain ⟨alive, others, own, cur⟩ := st.dispatch changed
    have here : u ≠ t.curthread c := by
      rintro rfl
      exact off c (own.trans (cur ne).symm)
    show Away (Function.update s.thread (t.curthread c) _ u)
    rw [Function.update_of_ne here]
    by_cases was : u = s.stack c
    · rw [was]
      refine left fun same => here ?_
      rw [was, same, cur ne]
    · refine inv.away (by rwa [← alive]) fun d eq => ?_
      by_cases same : d = c
      · rw [same] at eq
        exact was eq.symm
      · exact off d ((others d same).2.trans eq)

/-- The next thread becomes the current one. -/
lemma TrapSys.Inv.next (inv : s.Inv) (st : ThreadStep s.toThreadSys t) {u : Tid} (switching : s.mode c = .switching)
    (leaving : t.mode c = .leaving u) : (s.sched t).Inv := by
  have changed : t.mode c ≠ s.mode c := by
    rw [switching, leaving]
    exact nofun
  obtain ⟨alive, others, own, -⟩ := st.dispatch changed
  have same : t.stack c = s.stack c := own.trans (ThreadSys.stack_of_not_leaving (by rw [switching]; exact nofun)).symm
  have stack (d : Fin n) : t.stack d = s.stack d := by
    by_cases here : d = c
    · rw [here, same]
    · exact (others d here).2
  refine ⟨inv.threads.step st, fun d => ?_, fun {v} live off => ?_⟩
  · show Seat (s.thread (t.stack d)) (s.irqOn d) (t.mode d)
    rw [stack d]
    by_cases here : d = c
    · have seat := inv.seat c
      rw [switching] at seat
      rw [here, leaving]
      exact seat
    · rw [(others d here).1]
      exact inv.seat d
  · refine inv.away (by rwa [← alive]) fun d eq => ?_
    exact off d ((stack d).trans eq)

/-- A thread is created or destroyed, or waits for something else, or is moved. -/
lemma TrapSys.Inv.schedule (inv : s.Inv) (st : ThreadStep s.toThreadSys t) (same : t.mode = s.mode) :
    TrapSys.Inv { s.sched t with thread := fun u => if s.live u then s.thread u else .fresh } := by
  have stack (c : Fin n) : t.stack c = s.stack c := by
    rw [ThreadSys.stack, same, st.curthread same, ThreadSys.stack]
  refine ⟨inv.threads.step st, fun c => ?_, fun {u} live off => ?_⟩
  · show Seat (if s.live (t.stack c) then s.thread (t.stack c) else .fresh) (s.irqOn c) (t.mode c)
    rw [stack, if_pos (inv.threads.inUse c), same]
    exact inv.seat c
  · show Away (if s.live u then s.thread u else .fresh)
    split_ifs with old
    · exact inv.away old fun c eq => off c ((stack c).trans eq)
    · exact ⟨iplNone, [⟨.thread, [], 0⟩], ⟨rfl, ⟨trivial, trivial, trivial⟩, rfl, List.cons_ne_nil _ _⟩, rfl,
        ⟨trivial, rfl, threadFork_balanced⟩, rfl⟩

section

variable {ℓ ℓ' : TrapLevel} {ls : List TrapLevel}

/-- How a frame was entered does not depend on what it does. -/
lemma TrapLevel.Entered.congr (entered : ℓ.Entered ls) (same : ℓ'.entry = ℓ.entry) (ne : ℓ.entry ≠ .user) :
    ℓ'.Entered ls := by
  rw [TrapLevel.Entered] at entered ⊢
  rw [same]
  cases entry : ℓ.entry with
  | user => exact absurd entry ne
  | thread | irq | exception | switch =>
    rw [entry] at entered
    exact entered

/-- Whether a frame serves an interrupt depends on its entry only. -/
lemma inIrq_congr (same : ℓ'.entry = ℓ.entry) : inIrq (ℓ' :: ls) = inIrq (ℓ :: ls) := by
  rw [inIrq, inIrq, List.any_cons, List.any_cons, same]

/-- A CPU that is not about to leave the stack uses that of its current thread. -/
lemma TrapSys.Inv.here (inv : s.Inv) (ne : ∀ u, s.mode c ≠ .leaving u) :
    s.stack c = s.curthread c ∧ Seat (s.thread (s.curthread c)) (s.irqOn c) (s.mode c) := by
  have same := ThreadSys.stack_of_not_leaving ne
  have seat := inv.seat c
  rw [same] at seat
  exact ⟨same, seat⟩

/-- The stack of a thread has one top. -/
lemma Fits.top {x : TrapThread} {irqOn : Bool} {rq : Nat} {ℓ₀ : TrapLevel} {ls₀ : List TrapLevel}
    (fits : Fits x irqOn rq ℓ₀ ls₀) (levels : x.levels = ℓ :: ls) : ℓ₀ = ℓ ∧ ls₀ = ls :=
  List.cons.inj (fits.levels.symm.trans levels)

/-- Code that keeps the interrupt state in step with its level keeps the invariant. -/
lemma TrapSys.Inv.code (inv : s.Inv) (code : s.Code c ℓ ls) (ℓ' : TrapLevel) (entry : ℓ'.entry = ℓ.entry) :
    ∃ k, Here (ℓ.entry.base (splOf ls)) k ℓ (s.cur c) ∧ ∀ t, Here (ℓ.entry.base (splOf ls)) k ℓ' t →
      (s.put c t (s.inInterrupt c) (ℓ' :: ls)).Inv := by
  obtain ⟨levels, ne, mode⟩ := code
  cases running : s.mode c with
  | running =>
    obtain ⟨stack, seat⟩ := inv.here (c := c) (by rw [running]; exact nofun)
    rw [running] at seat
    obtain ⟨ℓ₀, ls₀, plain, entered, fits⟩ := seat
    obtain ⟨rfl, rfl⟩ := fits.top levels
    refine ⟨_, fits.here, fun t here => inv.put stack ?_⟩
    rw [running]
    refine ⟨ℓ', ls₀, plain, entered.congr entry ne, rfl, ?_, ?_⟩
    · rw [entry]
      exact here
    · exact fits.inInterrupt.trans (inIrq_congr entry).symm
  | exorcising =>
    obtain ⟨stack, seat⟩ := inv.here (c := c) (by rw [running]; exact nofun)
    rw [running] at seat
    obtain ⟨ℓ₀, ls₀, parked, fits⟩ := seat
    obtain ⟨rfl, rfl⟩ := fits.top levels
    refine ⟨_, fits.here, fun t here => inv.put stack ?_⟩
    rw [running]
    refine ⟨ℓ', ls₀, ⟨entry.trans parked.entry, parked.plain, parked.locks, parked.some⟩, rfl, ?_, ?_⟩
    · rw [entry]
      exact here
    · exact fits.inInterrupt.trans (inIrq_congr entry).symm
  | idle =>
    rw [running] at mode
    obtain ⟨stack, seat⟩ := inv.here (c := c) (by rw [running]; exact nofun)
    rw [running] at seat
    obtain ⟨spl, ls₀, -, fits⟩ | ⟨ℓ₀, spl, ls₀, parked, irq, fits⟩ := seat
    · obtain ⟨rfl, -⟩ := fits.top levels
      obtain ⟨_, _, irq⟩ := mode
      cases irq
    · obtain ⟨rfl, rfl⟩ := fits.top levels
      refine ⟨_, fits.here, fun t here => inv.put stack ?_⟩
      rw [running]
      refine .inr ⟨ℓ', spl, ls₀, parked, entry.trans irq, rfl, ?_, ?_⟩
      · rw [entry]
        exact here
      · exact fits.inInterrupt.trans (inIrq_congr entry).symm
  | switching | leaving =>
    rw [running] at mode
    exact mode.elim

/-- The step lemma for `splhigh`. -/
lemma TrapSys.Inv.splhigh (inv : s.Inv) (code : s.Code c ℓ ls) :
    ∃ spl t, Kern.splhigh (s.cur c) = .ok (spl, t) ∧
      (s.put c t (s.inInterrupt c) ({ ℓ with saved := spl :: ℓ.saved } :: ls)).Inv := by
  obtain ⟨k, here, next⟩ := inv.code code { ℓ with saved := (s.cur c).curspl :: ℓ.saved } rfl
  obtain ⟨t, e, here⟩ := here.splhigh
  exact ⟨_, t, e, next t here⟩

/-- The step lemma for `splx`. -/
lemma TrapSys.Inv.splx (inv : s.Inv) (code : s.Code c ℓ ls) {spl : Int} {saved : List Int}
    (top : ℓ.saved = spl :: saved) :
    ∃ old t, Kern.splx (s.cur c) spl = .ok (old, t) ∧
      (s.put c t (s.inInterrupt c) ({ ℓ with saved } :: ls)).Inv := by
  obtain ⟨k, here, next⟩ := inv.code code { ℓ with saved } rfl
  obtain ⟨t, e, here⟩ := here.splx top (base_mem _ _)
  exact ⟨_, t, e, next t here⟩

/-- The step lemma for `spinlock_acquire`. -/
lemma TrapSys.Inv.acquire (inv : s.Inv) (code : s.Code c ℓ ls) :
    ∃ t, spinlockAcquire (s.cur c) = .ok t ∧
      (s.put c t (s.inInterrupt c) ({ ℓ with locks := ℓ.locks + 1 } :: ls)).Inv := by
  obtain ⟨k, here, next⟩ := inv.code code { ℓ with locks := ℓ.locks + 1 } rfl
  obtain ⟨t, e, here⟩ := here.acquire
  exact ⟨t, e, next t here⟩

/-- The step lemma for `spinlock_release`. -/
lemma TrapSys.Inv.release (inv : s.Inv) (code : s.Code c ℓ ls) {k : Nat} (held : ℓ.locks = k + 1) :
    ∃ t, spinlockRelease (s.cur c) = .ok t ∧
      (s.put c t (s.inInterrupt c) ({ ℓ with locks := k } :: ls)).Inv := by
  obtain ⟨_, here, next⟩ := inv.code code { ℓ with locks := k } rfl
  obtain ⟨t, e, here⟩ := here.release held
  exact ⟨t, e, next t here⟩

/-! ## Traps -/

/-- In `thread_switch`, and in the handlers that run on the stack of an idle CPU, the level is high. -/
lemma Fits.high {x : TrapThread} {irqOn : Bool} {rq : Nat} (fits : Fits x irqOn rq ℓ ls)
    (base : ℓ.entry.base (splOf ls) = iplHigh) : x.curspl = iplHigh ∧ irqOn = false := by
  have level := fits.here.level
  rw [base, splAt_high] at level
  exact ⟨level, fits.here.balanced.dark level⟩

/-- A level is plain when its thread runs in it. -/
lemma Fits.plain {x : TrapThread} {irqOn : Bool} (fits : Fits x irqOn 0 ℓ ls) (plain : Plain ls)
    (entered : ℓ.Entered ls) :
    Plain (ℓ :: ls) ∧ x.curspl = splOf (ℓ :: ls) ∧
      SplThread.Balanced ⟨x.curspl, x.iplhighCount, irqOn⟩ (locksOf (ℓ :: ls)) := by
  refine ⟨⟨plain, entered, fits.here.saved⟩, fits.here.level, ?_⟩
  rw [locksOf_cons]
  exact fits.here.balanced

/-- An interrupt is taken where no spinlock is held: in a thread at the low level, or while the CPU idles. -/
lemma TrapSys.Inv.interrupt (inv : s.Inv) (on : s.irqOn c = true) :
    ∃ doadjust t, irqEnter { s.cur c with irqOn := false } = .ok (doadjust, t) ∧
      (s.put c t true (⟨.irq (s.inInterrupt c) doadjust, [], 0⟩ :: s.levels c)).Inv := by
  cases running : s.mode c with
  | running =>
    obtain ⟨stack, seat⟩ := inv.here (c := c) (by rw [running]; exact nofun)
    rw [running] at seat
    obtain ⟨ℓ, ls, plain, entered, fits⟩ := seat
    obtain ⟨plain', level, balanced⟩ := fits.plain plain entered
    obtain ⟨low, none⟩ := balanced.on_iff.1 on
    have zero : (s.cur c).iplhighCount = 0 := balanced.irq.1 on
    have low' : (s.cur c).curspl = iplNone := low
    have levels : s.levels c = ℓ :: ls := fits.levels
    refine ⟨true, ⟨iplHigh, 1, false⟩, ?_, inv.put stack ?_⟩
    · rw [irqEnter, if_pos low', kassert_pos low', ok_bind, kassert_pos zero, ok_bind, zero]
      rfl
    · rw [running, levels]
      refine ⟨⟨.irq (s.inInterrupt c) true, [], 0⟩, _, plain',
        ⟨List.cons_ne_nil _ _, none, level.symm.trans low, rfl, fits.inInterrupt⟩, rfl, ?_, rfl⟩
      rw [none]
      exact Here.push ⟨.inr rfl, rfl, iff_of_false nofun nofun⟩ rfl
  | idle =>
    obtain ⟨stack, seat⟩ := inv.here (c := c) (by rw [running]; exact nofun)
    rw [running] at seat
    obtain ⟨spl, ls, parked, fits⟩ | ⟨ℓ, spl, ls, parked, irq, fits⟩ := seat
    · obtain ⟨high, -⟩ := fits.high rfl
      have levels : s.levels c = ⟨.switch spl, [], 0⟩ :: ls := fits.levels
      have high : (s.cur c).curspl = iplHigh := high
      refine ⟨false, _, if_neg ?_, inv.put stack ?_⟩
      · show (s.cur c).curspl ≠ iplNone
        rw [high]
        decide
      · rw [running, levels]
        refine .inr ⟨_, spl, ls, parked, ?_, rfl, ?_, rfl⟩
        · have same : s.inInterrupt c = inIrq ls := fits.inInterrupt
          rw [same]
        · refine Here.push ?_ high
          have balanced := fits.here.balanced
          rw [locksOf_cons, Nat.zero_add]
          rw [Nat.zero_add] at balanced
          exact balanced
    · obtain ⟨-, off⟩ := fits.high (by rw [irq]; rfl)
      rw [off] at on
      cases on
  | exorcising =>
    have seat := inv.seat c
    rw [running] at seat
    obtain ⟨ℓ, ls, parked, fits⟩ := seat
    obtain ⟨-, off⟩ := fits.high (by rw [parked.entry]; rfl)
    rw [off] at on
    cases on
  | switching | leaving =>
    have seat := inv.seat c
    rw [running] at seat
    rw [seat.1] at on
    cases on

/-- The interrupted code goes on as if nothing had happened. -/
lemma TrapSys.Inv.iret (inv : s.Inv) {oldIn doadjust : Bool} (code : s.Code c ⟨.irq oldIn doadjust, [], 0⟩ ls) :
    ∃ t, irqLeave doadjust (s.cur c) = .ok t ∧ (s.put c { t with irqOn := true } oldIn ls).Inv := by
  obtain ⟨levels, -, mode⟩ := code
  cases running : s.mode c with
  | running =>
    obtain ⟨stack, seat⟩ := inv.here (c := c) (by rw [running]; exact nofun)
    rw [running] at seat
    obtain ⟨ℓ, ls', plain, entered, fits⟩ := seat
    obtain ⟨rfl, rfl⟩ := fits.top levels
    obtain ⟨some, none, low, rfl, rfl⟩ := entered
    obtain ⟨high, -⟩ := fits.high rfl
    have count := fits.here.balanced.count
    dsimp only at count high
    rw [if_pos high, none] at count
    have high : (s.cur c).curspl = iplHigh := high
    have one : (s.cur c).iplhighCount = 1 := count
    refine ⟨⟨iplNone, 0, (s.cur c).irqOn⟩, ?_, inv.put stack ?_⟩
    · rw [irqLeave, if_pos rfl, kassert_pos high, ok_bind, kassert_pos one, ok_bind, one]
      rfl
    · rw [running]
      obtain ⟨ℓ', ls, rfl⟩ := List.exists_cons_of_ne_nil some
      refine ⟨ℓ', ls, plain.1, plain.2.1, rfl, ⟨plain.2.2, low.symm, ?_⟩, rfl⟩
      rw [locksOf_cons] at none
      rw [Nat.add_zero, none]
      exact ⟨.inl rfl, rfl, iff_of_true rfl rfl⟩
  | idle =>
    obtain ⟨stack, seat⟩ := inv.here (c := c) (by rw [running]; exact nofun)
    rw [running] at seat
    obtain ⟨spl, ls', -, fits⟩ | ⟨ℓ, spl, ls', parked, irq, fits⟩ := seat
    · cases (fits.top levels).1
    · obtain ⟨rfl, rfl⟩ := fits.top levels
      cases irq
      refine ⟨s.cur c, rfl, inv.put stack ?_⟩
      rw [running]
      obtain ⟨high, -⟩ := fits.high rfl
      refine .inl ⟨spl, ls', parked, rfl, ⟨trivial, high, ?_⟩, rfl⟩
      have balanced := fits.here.balanced
      rw [locksOf_cons, Nat.zero_add, Nat.zero_add] at balanced
      have off : s.irqOn c = false := balanced.dark high
      rw [off] at balanced
      rw [Nat.zero_add]
      exact balanced
  | exorcising =>
    have seat := inv.here (c := c) (by rw [running]; exact nofun)
    rw [running] at seat
    obtain ⟨-, ℓ, ls', parked, fits⟩ := seat
    obtain ⟨rfl, rfl⟩ := fits.top levels
    cases parked.entry
  | switching | leaving =>
    rw [running] at mode
    exact mode.elim

/-- A fault of a running thread. -/
lemma TrapSys.Inv.exception (inv : s.Inv) (running : s.mode c = .running) :
    exceptionEnter { s.cur c with irqOn := false } = .ok (s.cur c) ∧
      (s.put c (s.cur c) (s.inInterrupt c) (⟨.exception (s.irqOn c), [], 0⟩ :: s.levels c)).Inv := by
  obtain ⟨stack, seat⟩ := inv.here (c := c) (by rw [running]; exact nofun)
  rw [running] at seat
  obtain ⟨ℓ, ls, plain, entered, fits⟩ := seat
  obtain ⟨plain', level, balanced⟩ := fits.plain plain entered
  have levels : s.levels c = ℓ :: ls := fits.levels
  refine ⟨exceptionEnter_eq balanced, inv.put stack ?_⟩
  rw [running, levels]
  refine ⟨⟨.exception (s.irqOn c), [], 0⟩, _, plain', ⟨List.cons_ne_nil _ _, ?_⟩, rfl, Here.push balanced level,
    fits.inInterrupt⟩
  rw [← level]
  exact balanced.on_iff

/-- A system call comes from user mode, where interrupts are on. -/
lemma TrapSys.Inv.syscall (inv : s.Inv) (running : s.mode c = .running) (levels : s.levels c = ℓ :: ls)
    (user : ℓ.entry = .user) :
    syscallEnter { s.cur c with irqOn := false } = .ok (s.cur c) ∧
      (s.put c (s.cur c) (s.inInterrupt c) (⟨.exception (s.irqOn c), [], 0⟩ :: ℓ :: ls)).Inv := by
  obtain ⟨enter, next⟩ := inv.exception running
  obtain ⟨-, seat⟩ := inv.here (c := c) (by rw [running]; exact nofun)
  rw [running] at seat
  obtain ⟨ℓ', ls', plain, entered, fits⟩ := seat
  obtain ⟨rfl, rfl⟩ := fits.top levels
  obtain ⟨-, level, balanced⟩ := fits.plain plain entered
  rw [TrapLevel.Entered, user] at entered
  obtain ⟨-, none, saved, locks⟩ := entered
  have low : (s.cur c).curspl = iplNone := by
    refine level.trans ?_
    rw [splOf, saved, user]
    rfl
  have zero : (s.cur c).iplhighCount = 0 := by
    refine balanced.irq.1 (balanced.on_iff.2 ⟨low, ?_⟩)
    rw [locksOf_cons, none, locks]
  rw [levels] at next
  refine ⟨?_, next⟩
  rw [syscallEnter, enter, ok_bind, kassert_pos low, ok_bind, kassert_pos zero, ok_bind]

/-- The step lemma for the return from an exception. -/
lemma TrapSys.Inv.eret (inv : s.Inv) (running : s.mode c = .running) {iep : Bool}
    (levels : s.levels c = ⟨.exception iep, [], 0⟩ :: ls) :
    (s.put c { s.cur c with irqOn := iep } (s.inInterrupt c) ls).Inv := by
  obtain ⟨stack, seat⟩ := inv.here (c := c) (by rw [running]; exact nofun)
  rw [running] at seat
  obtain ⟨ℓ', ls', plain, entered, fits⟩ := seat
  obtain ⟨rfl, rfl⟩ := fits.top levels
  obtain ⟨some, on⟩ := entered
  have here := fits.here
  obtain ⟨ℓ, ls, rfl⟩ := List.exists_cons_of_ne_nil some
  refine inv.put stack ?_
  rw [running]
  refine ⟨ℓ, ls, plain.1, plain.2.1, rfl, ⟨plain.2.2, here.level, ?_⟩, fits.inInterrupt⟩
  have balanced := here.balanced
  rw [Nat.zero_add, Nat.add_zero, locksOf_cons] at balanced
  refine ⟨balanced.level, balanced.count, ?_⟩
  have level : (s.cur c).curspl = splOf (ℓ :: ls) := here.level
  show iep = true ↔ (s.cur c).iplhighCount = 0
  rw [on, locksOf_cons, ← level]
  exact balanced.on_iff.symm.trans balanced.irq

/-- The step lemma for `mips_usermode`. -/
lemma TrapSys.Inv.usermode (inv : s.Inv) (running : s.mode c = .running) (code : s.Code c ℓ ls)
    (none : locksOf (ℓ :: ls) = 0) :
    ∃ old t, spl0 (s.cur c) = .ok (old, t) ∧
      (s.put c { t with irqOn := true } (s.inInterrupt c) (⟨.user, [], 0⟩ :: ℓ :: ls)).Inv := by
  obtain ⟨stack, seat⟩ := inv.here (c := c) (by rw [running]; exact nofun)
  rw [running] at seat
  obtain ⟨ℓ', ls', plain, entered, fits⟩ := seat
  obtain ⟨rfl, rfl⟩ := fits.top code.1
  obtain ⟨plain', -, balanced⟩ := fits.plain plain entered
  obtain ⟨t, e, balanced⟩ := balanced.splx (.inl rfl)
  have low := splx_curspl e
  rw [none] at balanced
  have on : t.irqOn = true := balanced.on_iff.2 ⟨low, rfl⟩
  refine ⟨_, t, e, inv.put stack ?_⟩
  rw [running]
  refine ⟨⟨.user, [], 0⟩, _, plain', ⟨List.cons_ne_nil _ _, none, rfl, rfl⟩, rfl, Here.push ?_ low, fits.inInterrupt⟩
  rw [none]
  exact ⟨balanced.level, balanced.count, iff_of_true rfl (balanced.irq.1 on)⟩

/-- An idle CPU turns interrupts on and off. -/
lemma TrapSys.Inv.setIrq (inv : s.Inv) (idle : s.mode c = .idle) {spl : Int}
    (levels : s.levels c = ⟨.switch spl, [], 0⟩ :: ls) (irqOn : Bool) :
    TrapSys.Inv { s with irqOn := Function.update s.irqOn c irqOn } := by
  refine ⟨inv.threads, fun d => ?_, inv.away⟩
  show Seat (s.thread (s.stack d)) (Function.update s.irqOn c irqOn d) (s.mode d)
  by_cases here : d = c
  · obtain ⟨stack, seat⟩ := inv.here (c := c) (by rw [idle]; exact nofun)
    rw [idle] at seat
    rw [here, stack, Function.update_self, idle]
    obtain window | ⟨ℓ, spl, ls, -, irq, fits⟩ := seat
    · exact .inl window
    · obtain ⟨rfl, -⟩ := fits.top levels
      cases irq
  · rw [Function.update_of_ne here]
    exact inv.seat d

/-! ## `thread_switch` -/

/-- The beginning of `thread_switch`, in a thread that holds `k` spinlocks. -/
lemma switchEnter_ok {t : SplThread} (sleep : Bool) {k : Nat} (balanced : t.Balanced k)
    (locks : k = if sleep then 1 else 0) :
    ∃ t', switchEnter sleep t = .ok (t.curspl, t') ∧ t'.curspl = iplHigh ∧ t'.Balanced 1 := by
  obtain ⟨t₁, e₁, balanced₁⟩ := balanced.splx (.inr rfl)
  have high := splx_curspl e₁
  have e₁ : splhigh t = .ok (t.curspl, t₁) := e₁
  obtain ⟨t₂, e₂, balanced₂⟩ := balanced₁.splraise
  have e₂ : spinlockAcquire t₁ = .ok t₂ := e₂
  have high₂ := (spinlockAcquire_curspl e₂).trans high
  cases sleep with
  | false =>
    refine ⟨t₂, ?_, high₂, ?_⟩
    · rw [switchEnter, e₁, ok_bind]
      dsimp only
      rw [e₂]
      rfl
    · rw [locks] at balanced₂
      exact balanced₂
  | true =>
    rw [locks] at balanced₂
    obtain ⟨-, t₃, e₃, balanced₃⟩ := balanced₂.spllower
    have e₃ : spinlockRelease t₂ = .ok t₃ := e₃
    refine ⟨t₃, ?_, (spinlockRelease_curspl e₃).trans high₂, balanced₃⟩
    rw [switchEnter, e₁, ok_bind]
    dsimp only
    rw [e₂, ok_bind, if_pos rfl, e₃]
    rfl

/-- A thread that has called `thread_switch` is away. -/
lemma Away.enter {t : SplThread} {inInterrupt : Bool} {spl : Int} (plain : Plain (ℓ :: ls))
    (level : spl = splOf (ℓ :: ls)) (locks : locksOf (ℓ :: ls) = 0) (handler : inInterrupt = inIrq (ℓ :: ls))
    (high : t.curspl = iplHigh) (balanced : t.Balanced 1) :
    t.irqOn = false ∧ Away ⟨t.curspl, t.iplhighCount, inInterrupt, ⟨.switch spl, [], 0⟩ :: ℓ :: ls⟩ := by
  have off := balanced.dark high
  refine ⟨off, spl, _, ⟨by rw [level], plain, locks, List.cons_ne_nil _ _⟩, rfl, ?_, handler⟩
  rw [locks, Nat.zero_add]
  refine Here.push ?_ high
  rw [← off]
  exact balanced

/-- The step lemma for a switch that holds no lock. -/
lemma TrapSys.Inv.switch (inv : s.Inv) (st : ThreadStep s.toThreadSys t) (running : s.mode c = .running)
    (switching : t.mode c = .switching) (code : s.Code c ℓ ls) (none : locksOf (ℓ :: ls) = 0) :
    ∃ spl x, switchEnter false (s.cur c) = .ok (spl, x) ∧
      ((s.sched t).put c x (s.inInterrupt c) (⟨.switch spl, [], 0⟩ :: ℓ :: ls)).Inv := by
  obtain ⟨stack, seat⟩ := inv.here (c := c) (by rw [running]; exact nofun)
  rw [running] at seat
  obtain ⟨ℓ', ls', plain, entered, fits⟩ := seat
  obtain ⟨rfl, rfl⟩ := fits.top code.1
  obtain ⟨plain', level, balanced⟩ := fits.plain plain entered
  obtain ⟨x, e, high, balanced⟩ := switchEnter_ok false balanced none
  refine ⟨_, x, e, inv.dispatch st ?_ ?_ (fun ne => absurd stack ne) ?_⟩
  · rw [switching, running]
    exact nofun
  · rw [switching]
    exact nofun
  · rw [switching]
    exact Away.enter plain' level none fits.inInterrupt high balanced

/-- The step lemma for `wchan_sleep`, which goes to the switch with the channel's lock. -/
lemma TrapSys.Inv.sleep (inv : s.Inv) (st : ThreadStep s.toThreadSys t) (running : s.mode c = .running)
    (switching : t.mode c = .switching) (code : s.Code c ℓ ls) (one : ℓ.locks = 1) (none : locksOf ls = 0) :
    ∃ spl x, switchEnter true (s.cur c) = .ok (spl, x) ∧
      ((s.sched t).put c x (s.inInterrupt c) (⟨.switch spl, [], 0⟩ :: { ℓ with locks := 0 } :: ls)).Inv := by
  obtain ⟨stack, seat⟩ := inv.here (c := c) (by rw [running]; exact nofun)
  rw [running] at seat
  obtain ⟨ℓ', ls', plain, entered, fits⟩ := seat
  obtain ⟨rfl, rfl⟩ := fits.top code.1
  obtain ⟨plain', level, balanced⟩ := fits.plain plain entered
  rw [locksOf_cons, none] at balanced
  obtain ⟨x, e, high, balanced⟩ := switchEnter_ok true balanced one
  have unlocked : Plain ({ ℓ' with locks := 0 } :: ls') := ⟨plain'.1, plain'.2.1.congr rfl code.2.1, plain'.2.2⟩
  refine ⟨_, x, e, inv.dispatch st ?_ ?_ (fun ne => absurd stack ne) ?_⟩
  · rw [switching, running]
    exact nofun
  · rw [switching]
    exact nofun
  · rw [switching]
    exact Away.enter unlocked level (by rw [locksOf_cons, none]) fits.inInterrupt high balanced

/-- The step lemma for a CPU that finds no thread. -/
lemma TrapSys.Inv.idle (inv : s.Inv) (st : ThreadStep s.toThreadSys t) (switching : s.mode c = .switching)
    (idle : t.mode c = .idle) :
    ∃ x, spinlockRelease (s.cur c) = .ok x ∧ ((s.sched t).put c x (s.inInterrupt c) (s.levels c)).Inv := by
  obtain ⟨stack, seat⟩ := inv.here (c := c) (by rw [switching]; exact nofun)
  rw [switching] at seat
  obtain ⟨off, spl, ls, parked, fits⟩ := seat
  have here := fits.here
  have levels : s.levels c = _ := fits.levels
  rw [← off] at here
  obtain ⟨x, e, here⟩ := here.unlock
  refine ⟨x, e, inv.dispatch st ?_ ?_ (fun ne => absurd stack ne) ?_⟩
  · rw [switching, idle]
    exact nofun
  · rw [idle]
    exact nofun
  · rw [idle]
    refine .inl ⟨spl, ls, parked, levels, ?_, fits.inInterrupt⟩
    rw [← here.balanced.dark here.level]
    exact here

/-- The step lemma for a CPU that leaves the idle loop. -/
lemma TrapSys.Inv.unidle (inv : s.Inv) (st : ThreadStep s.toThreadSys t) (idle : s.mode c = .idle)
    (switching : t.mode c = .switching) {spl : Int} (levels : s.levels c = ⟨.switch spl, [], 0⟩ :: ls)
    (off : s.irqOn c = false) :
    ∃ x, spinlockAcquire (s.cur c) = .ok x ∧ ((s.sched t).put c x (s.inInterrupt c) (s.levels c)).Inv := by
  obtain ⟨stack, seat⟩ := inv.here (c := c) (by rw [idle]; exact nofun)
  rw [idle] at seat
  obtain ⟨spl', ls', parked, fits⟩ | ⟨ℓ', spl', ls', -, irq, fits⟩ := seat
  · have here := fits.here
    have levels : s.levels c = _ := fits.levels
    rw [← off] at here
    obtain ⟨x, e, here⟩ := here.lock
    refine ⟨x, e, inv.dispatch st ?_ ?_ (fun ne => absurd stack ne) ?_⟩
    · rw [switching, idle]
      exact nofun
    · rw [switching]
      exact nofun
    · have dark := here.balanced.dark here.level
      rw [switching]
      refine ⟨dark, spl', ls', parked, levels, ?_, fits.inInterrupt⟩
      rw [← dark]
      exact here
  · obtain ⟨rfl, -⟩ := fits.top levels
    cases irq

/-- The next thread has been away, or it is the same one. -/
lemma TrapSys.Inv.incoming (inv : s.Inv) {u : Tid} (leaving : s.mode c = .leaving u) :
    s.irqOn c = false ∧ Away (s.thread (s.curthread c)) ∧ Away (s.thread (s.stack c)) := by
  have seat := inv.seat c
  rw [leaving] at seat
  refine ⟨seat.1, ?_, seat.2⟩
  by_cases same : s.stack c = s.curthread c
  · rw [← same]
    exact seat.2
  · have mem := ThreadSys.mem_cpu (s := s.toThreadSys) (c := c) (by rw [leaving]; rfl)
    refine inv.away (inv.threads.placed.of_mem mem) fun d eq => same ?_
    have here : d = c := by rw [← inv.threads.stack d, eq, inv.threads.current c]
    rwa [here] at eq

/-- The step lemma for `switchframe_switch`. -/
lemma TrapSys.Inv.switchframe (inv : s.Inv) (st : ThreadStep s.toThreadSys t) {u : Tid}
    (leaving : s.mode c = .leaving u) (exorcising : t.mode c = .exorcising) :
    ∃ x, spinlockRelease (s.cur c) = .ok x ∧ ((s.sched t).put c x (s.inInterrupt c) (s.levels c)).Inv := by
  obtain ⟨off, ⟨spl, ls, parked, fits⟩, left⟩ := inv.incoming leaving
  have here := fits.here
  have levels : s.levels c = _ := fits.levels
  rw [← off] at here
  obtain ⟨x, e, here⟩ := here.unlock
  refine ⟨x, e, inv.dispatch st ?_ ?_ (fun _ => left) ?_⟩
  · rw [leaving, exorcising]
    exact nofun
  · rw [exorcising]
    exact nofun
  · rw [exorcising]
    exact ⟨_, ls, parked, levels, here, fits.inInterrupt⟩

/-- The step lemma for the end of a switch. -/
lemma TrapSys.Inv.exorcised (inv : s.Inv) (st : ThreadStep s.toThreadSys t) (exorcising : s.mode c = .exorcising)
    (running : t.mode c = .running) {spl : Int} (levels : s.levels c = ⟨.switch spl, [], 0⟩ :: ls) :
    ∃ old x, Kern.splx (s.cur c) spl = .ok (old, x) ∧ ((s.sched t).put c x (s.inInterrupt c) ls).Inv := by
  obtain ⟨stack, seat⟩ := inv.here (c := c) (by rw [exorcising]; exact nofun)
  rw [exorcising] at seat
  obtain ⟨ℓ', ls', parked, fits⟩ := seat
  obtain ⟨rfl, rfl⟩ := fits.top levels
  have entry := parked.entry
  cases entry
  have balanced := fits.here.balanced
  obtain ⟨x, e, balanced⟩ := balanced.splx (splOf_mem ls')
  have level := splx_curspl e
  refine ⟨_, x, e, inv.dispatch st ?_ ?_ (fun ne => absurd stack ne) ?_⟩
  · rw [exorcising, running]
    exact nofun
  · rw [running]
    exact nofun
  · obtain ⟨plain, none, some⟩ := (⟨parked.plain, parked.locks, parked.some⟩ : _ ∧ _ ∧ _)
    rw [running]
    obtain ⟨ℓ, ls, rfl⟩ := List.exists_cons_of_ne_nil some
    refine ⟨ℓ, ls, plain.1, plain.2.1, rfl, ⟨plain.2.2, level, ?_⟩, fits.inInterrupt⟩
    rw [Nat.zero_add, Nat.add_zero, locksOf_cons] at balanced
    exact balanced

/-- No step fails, and every step keeps the invariant. -/
lemma TrapSys.Inv.step (inv : s.Inv) {r : Except Halt (TrapSys n)} (st : TrapStep s r) : ∃ s', r = .ok s' ∧ s'.Inv := by
  cases st with
  | splhigh code =>
    obtain ⟨spl, x, e, next⟩ := inv.splhigh code
    exact ⟨_, by rw [e]; rfl, next⟩
  | splx code top =>
    obtain ⟨old, x, e, next⟩ := inv.splx code top
    exact ⟨_, by rw [e]; rfl, next⟩
  | acquire code =>
    obtain ⟨x, e, next⟩ := inv.acquire code
    exact ⟨_, by rw [e]; rfl, next⟩
  | release code held =>
    obtain ⟨x, e, next⟩ := inv.release code held
    exact ⟨_, by rw [e]; rfl, next⟩
  | interrupt on =>
    obtain ⟨doadjust, x, e, next⟩ := inv.interrupt on
    exact ⟨_, by rw [e]; rfl, next⟩
  | iret code =>
    obtain ⟨x, e, next⟩ := inv.iret code
    exact ⟨_, by rw [e]; rfl, next⟩
  | fault running =>
    obtain ⟨e, next⟩ := inv.exception running
    exact ⟨_, by rw [e]; rfl, next⟩
  | syscall running levels user =>
    obtain ⟨e, next⟩ := inv.syscall running levels user
    exact ⟨_, by rw [e]; rfl, next⟩
  | eret running levels => exact ⟨_, rfl, inv.eret running levels⟩
  | usermode running code none =>
    obtain ⟨old, x, e, next⟩ := inv.usermode running code none
    exact ⟨_, by rw [e]; rfl, next⟩
  | irqon idle levels => exact ⟨_, rfl, inv.setIrq idle levels true⟩
  | irqoff idle levels => exact ⟨_, rfl, inv.setIrq idle levels false⟩
  | schedule st same => exact ⟨_, rfl, inv.schedule st same⟩
  | switch st running switching _ code none =>
    obtain ⟨spl, x, e, next⟩ := inv.switch st running switching code none
    exact ⟨_, by rw [e]; rfl, next⟩
  | sleep st running switching _ code one none =>
    obtain ⟨spl, x, e, next⟩ := inv.sleep st running switching code one none
    exact ⟨_, by rw [e]; rfl, next⟩
  | idle st switching idle =>
    obtain ⟨x, e, next⟩ := inv.idle st switching idle
    exact ⟨_, by rw [e]; rfl, next⟩
  | unidle st idle switching levels off =>
    obtain ⟨x, e, next⟩ := inv.unidle st idle switching levels off
    exact ⟨_, by rw [e]; rfl, next⟩
  | next st switching leaving => exact ⟨_, rfl, inv.next st switching leaving⟩
  | switchframe st leaving exorcising =>
    obtain ⟨x, e, next⟩ := inv.switchframe st leaving exorcising
    exact ⟨_, by rw [e]; rfl, next⟩
  | exorcised st exorcising running levels =>
    obtain ⟨old, x, e, next⟩ := inv.exorcised st exorcising running levels
    exact ⟨_, by rw [e]; rfl, next⟩

/-- The invariant holds at boot. -/
lemma TrapSys.Boot.inv (boot : s.Boot) : s.Inv := by
  have stack (c : Fin n) : s.stack c = s.curthread c :=
    ThreadSys.stack_of_not_leaving (by rw [boot.threads.mode c]; exact nofun)
  refine ⟨boot.threads.inv, fun c => ?_, fun {t} live off => ?_⟩
  · rw [stack, boot.thread c, boot.irqOn c, boot.threads.mode c]
    exact ⟨⟨.thread, [iplNone], 0⟩, [], trivial, trivial, rfl, ⟨⟨rfl, trivial⟩, rfl, threadCreate_balanced⟩, rfl⟩
  · obtain ⟨c, rfl⟩ := (boot.threads.live t).1 live
    exact absurd (stack c) (off c)

/-- The invariant holds in every state reached from boot. -/
lemma TrapSys.Boot.run {s₀ : TrapSys n} (boot : s₀.Boot)
    (run : Relation.ReflTransGen (fun s s' => TrapStep s (.ok s')) s₀ s) : s.Inv := by
  induction run with
  | refl => exact boot.inv
  | tail _ st ih =>
    obtain ⟨_, e, next⟩ := ih.step st
    cases e
    exact next

/-- Where interrupts are on, no spinlock is held. -/
lemma TrapSys.Inv.unlocked (inv : s.Inv) (on : s.irqOn c = true) :
    (s.mode c = .running ∨ s.mode c = .idle) ∧ locksOf (s.levels c) = 0 := by
  have seat := inv.seat c
  cases running : s.mode c with
  | running =>
    obtain ⟨-, seat⟩ := inv.here (c := c) (by rw [running]; exact nofun)
    rw [running] at seat
    obtain ⟨ℓ, ls, plain, entered, fits⟩ := seat
    have levels : s.levels c = ℓ :: ls := fits.levels
    rw [levels]
    exact ⟨.inl rfl, ((fits.plain plain entered).2.2.on_iff.1 on).2⟩
  | idle =>
    obtain ⟨-, seat⟩ := inv.here (c := c) (by rw [running]; exact nofun)
    rw [running] at seat
    obtain ⟨spl, ls, parked, fits⟩ | ⟨ℓ, spl, ls, -, irq, fits⟩ := seat
    · have levels : s.levels c = _ := fits.levels
      rw [levels, locksOf_cons, parked.locks]
      exact ⟨.inr rfl, rfl⟩
    · obtain ⟨-, off⟩ := fits.high (by rw [irq]; rfl)
      rw [off] at on
      cases on
  | exorcising =>
    rw [running] at seat
    obtain ⟨ℓ, ls, parked, fits⟩ := seat
    obtain ⟨-, off⟩ := fits.high (by rw [parked.entry]; rfl)
    rw [off] at on
    cases on
  | switching | leaving =>
    rw [running] at seat
    rw [seat.1] at on
    cases on

end

end

/-- The recorded interrupt state agrees with the processor, for any number of CPUs and threads, across nested traps,
context switches inside interrupt handlers and migration: no assertion about it fails; the state of running code is
determined by the stack of its thread, so that code that has been interrupted finds it as it was; interrupts are on where
the count is zero, and only where no spinlock is held; and a thread that is on no CPU has one spinlock to release. -/
theorem interrupt_state {n : Nat} {s₀ s : TrapSys n} (boot : s₀.Boot)
    (run : Relation.ReflTransGen (fun s s' => TrapStep s (.ok s')) s₀ s) :
    (∀ r, TrapStep s r → ∃ s', r = .ok s') ∧
      (∀ c, s.mode c = .running →
        (s.cur c).curspl = splOf (s.levels c) ∧
        (s.cur c).iplhighCount = locksOf (s.levels c) + (if splOf (s.levels c) = iplHigh then 1 else 0) ∧
        (s.irqOn c = true ↔ (s.cur c).iplhighCount = 0) ∧ s.inInterrupt c = inIrq (s.levels c)) ∧
      (∀ c, s.irqOn c = true → (s.mode c = .running ∨ s.mode c = .idle) ∧ locksOf (s.levels c) = 0) ∧
      ∀ t, s.live t = true → (∀ c, s.stack c ≠ t) →
        (s.thread t).curspl = iplHigh ∧ (s.thread t).iplhighCount = 2 ∧ locksOf (s.thread t).levels = 0 := by
  have inv := boot.run run
  refine ⟨fun r st => ?_, fun c running => ?_, fun c on => inv.unlocked on, fun t live off => ?_⟩
  · obtain ⟨s', e, -⟩ := inv.step st
    exact ⟨s', e⟩
  · obtain ⟨-, seat⟩ := inv.here (c := c) (by rw [running]; exact nofun)
    rw [running] at seat
    obtain ⟨ℓ, ls, plain, entered, fits⟩ := seat
    obtain ⟨-, level, balanced⟩ := fits.plain plain entered
    have levels : s.levels c = ℓ :: ls := fits.levels
    rw [levels, ← level]
    exact ⟨rfl, balanced.count, balanced.irq, fits.inInterrupt⟩
  · obtain ⟨spl, ls, parked, fits⟩ := inv.away live off
    obtain ⟨high, -⟩ := fits.high rfl
    have count := fits.here.balanced.count
    dsimp only at count
    rw [if_pos high, parked.locks] at count
    refine ⟨high, count, ?_⟩
    rw [fits.levels, locksOf_cons, parked.locks]

/-- The two CPUs of `twoCpus`, with interrupts off. -/
def twoTraps : TrapSys 2 where
  toThreadSys := twoCpus
  irqOn _ := false
  thread _ := ⟨threadCreate.curspl, threadCreate.iplhighCount, false, [⟨.thread, [iplNone], 0⟩]⟩

/-- Two CPUs may boot so. -/
lemma twoTraps_boot : twoTraps.Boot := ⟨twoCpus_boot, fun _ => rfl, fun _ => rfl⟩

/-- The thread of the first CPU sleeps, and its CPU idles and takes an interrupt on the stack of the thread. -/
theorem interrupt_state_idle : ∃ s : TrapSys 2, s.mode 0 = .idle ∧
    s.levels 0 = [⟨.irq false false, [], 0⟩, ⟨.switch iplNone, [], 0⟩, ⟨.thread, [], 0⟩] ∧
    ∀ r, TrapStep s r → ∃ s', r = .ok s' := by
  have start : Relation.ReflTransGen (fun s s' => TrapStep s (.ok s')) twoTraps twoTraps := .refl
  have low := start.tail (@TrapStep.splx _ _ 0 ⟨.thread, [iplNone], 0⟩ [] _ _ ⟨rfl, nofun, trivial⟩ rfl)
  have locked := low.tail (@TrapStep.acquire _ _ 0 ⟨.thread, [], 0⟩ [] ⟨rfl, nofun, trivial⟩)
  have slept := locked.tail (@TrapStep.sleep _ _ _ 0 ⟨.thread, [], 1⟩ []
    (.sleep (c := 0) (w := 0) rfl rfl) rfl rfl rfl ⟨rfl, nofun, trivial⟩ rfl rfl rfl)
  have idles := slept.tail (.idle (c := 0) (.idle (c := 0) rfl rfl) rfl rfl)
  have on := idles.tail (@TrapStep.irqon _ _ 0 iplNone [⟨.thread, [], 0⟩] rfl rfl)
  have handler := on.tail (.interrupt (c := 0) rfl)
  exact ⟨_, rfl, rfl, (interrupt_state twoTraps_boot handler).1⟩

end PDS.Kern
