import PDS.Kern.Ipi
import PDS.Kern.ThreadRun

/-!
# Idle CPUs

The thread system of `Thread.lean` with `c_isidle`, `cpu_idle` and the interprocessor interrupts that wake an idle CPU:
`thread_make_runnable` and `thread_consider_migration` send `IPI_UNIDLE` to a CPU on whose run queue they put a thread
while it is idle, and `mainbus_interrupt` calls `interprocessor_interrupt` and clears the interrupt line of the CPU
afterwards, which takes two steps.

The `wait` instruction in `cpu_idle` ends when an interrupt is about to occur; `cpu_irqonoff` takes it, and only then
the run queue is looked at again. No CPU waits while there is a thread on its run queue unless its interrupt line is
asserted (`idle_cpus_wake`). An interrupt that is sent between the two steps of the handler is lost, but not the thread.
-/

namespace PDS.Kern

/-- C `c_isidle`, which is only looked at while the run queue is locked. -/
def CpuMode.isidle : CpuMode → Bool
  | .switching | .idle => true
  | .running | .leaving _ | .exorcising => false

/-- The thread system with the interrupts between its CPUs. -/
structure IdleSys (n : Nat) extends ThreadSys n where
  /-- the CPU is at the `wait` instruction -/
  asleep : Fin n → Bool
  ipi : Fin n → CpuIpi
  /-- the interrupt line of each CPU (C `CTLCPU_CIPI`) -/
  line : Fin n → Bool
  /-- `interprocessor_interrupt` has returned, and `lamebus_clear_ipi` has not been called yet -/
  clearing : Fin n → Bool

namespace IdleSys

variable {n : Nat}

/-- Sends an interrupt to a CPU (C `ipi_send`). -/
def send (s : IdleSys n) (d : Fin n) (code : IpiCode) : IdleSys n :=
  { s with
    ipi := Function.update s.ipi d (ipiSend (s.ipi d) code)
    line := Function.update s.line d true }

/-- "Other processor is idle; send interrupt to make sure it unidles." -/
def unidle (s : IdleSys n) (d : Fin n) : IdleSys n := if (s.mode d).isidle then s.send d .unidle else s

/-- A critical section of `thread_consider_migration` that sends threads to the CPU `d`. -/
def Announces (m : Migration) (q q' : Queues n) (d : Fin n) : Prop :=
  m.pc = .send d.val ∧ q'.runqueue d ≠ q.runqueue d

instance (m : Migration) (q q' : Queues n) (d : Fin n) : Decidable (Announces m q q' d) :=
  inferInstanceAs (Decidable (_ ∧ _))

/-- The interrupts that it sends. -/
def announce (s : IdleSys n) (m : Migration) (q : Queues n) : IdleSys n :=
  { s with
    ipi := fun d => if Announces m s.queues q d then (s.unidle d).ipi d else s.ipi d
    line := fun d => if Announces m s.queues q d then (s.unidle d).line d else s.line d }

end IdleSys

/-- One step of the thread system with interrupts. A CPU that handles an interrupt does nothing else. -/
inductive IdleStep {n : Nat} (vm : VmCall → Except Halt Unit) : IdleSys n → IdleSys n → Prop where
  | fork {s c a t} : s.mode c = .running → s.mig c = none → s.clearing c = false → s.live t = false → s.hand a = [] →
    IdleStep vm s { s with
      queues := { s.queues with tcpu := Function.update s.queues.tcpu t (s.queues.tcpu (s.curthread c)) }
      hand := Function.update s.hand a [t]
      state := Function.update s.state t .ready
      live := Function.update s.live t true }
  | wakeone {s a w t ts} : s.hand a = [] → s.wchan w = t :: ts →
    IdleStep vm s { s with hand := Function.update s.hand a [t], wchan := Function.update s.wchan w ts }
  | wakeall {s a w} : s.hand a = [] →
    IdleStep vm s { s with hand := Function.update s.hand a (s.wchan w), wchan := Function.update s.wchan w [] }
  /-- `thread_make_runnable` -/
  | makeRunnable {s a t ts} : s.hand a = t :: ts → ¬ s.Locked (s.queues.tcpu t) →
    IdleStep vm s { s with
      queues := s.queues.set (s.queues.tcpu t) (s.queues.runqueue (s.queues.tcpu t) ++ [t])
      hand := Function.update s.hand a ts
      ipi := (s.unidle (s.queues.tcpu t)).ipi
      line := (s.unidle (s.queues.tcpu t)).line }
  | yield {s c} : s.mode c = .running → s.mig c = none → s.clearing c = false → s.queues.runqueue c ≠ [] →
    IdleStep vm s { s with
      toThreadSys := { s.switching c .ready with
        queues := s.queues.set c (s.queues.runqueue c ++ [s.curthread c]) } }
  | sleep {s c w} : s.mode c = .running → s.mig c = none → s.clearing c = false →
    IdleStep vm s { s with
      toThreadSys := { s.switching c .sleep with
        wchan := Function.update s.wchan w (s.wchan w ++ [s.curthread c]) } }
  | exit {s c} : s.mode c = .running → s.mig c = none → s.clearing c = false →
    IdleStep vm s { s with
      toThreadSys := { s.switching c .zombie with
        zombies := Function.update s.zombies c (s.zombies c ++ [s.curthread c]) } }
  | next {s c t ts} : s.mode c = .switching → s.queues.runqueue c = t :: ts →
    IdleStep vm s { s with
      queues := s.queues.set c ts
      curthread := Function.update s.curthread c t
      mode := Function.update s.mode c (.leaving (s.curthread c)) }
  /-- the run queue is unlocked, and `cpu_idle` comes to the `wait` instruction -/
  | idle {s c} : s.mode c = .switching → s.queues.runqueue c = [] →
    IdleStep vm s { s with mode := Function.update s.mode c .idle, asleep := Function.update s.asleep c true }
  /-- an interrupt of another CPU ends the `wait` instruction -/
  | wake {s c} : s.asleep c = true → s.line c = true →
    IdleStep vm s { s with asleep := Function.update s.asleep c false }
  /-- the timer or a device does -/
  | device {s c} : s.asleep c = true →
    IdleStep vm s { s with asleep := Function.update s.asleep c false }
  /-- `cpu_idle` returns and the run queue is locked again -/
  | unidle {s c} : s.mode c = .idle → s.asleep c = false → s.mig c = none → s.clearing c = false →
    IdleStep vm s { s with mode := Function.update s.mode c .switching }
  | switchframe {s c cur} : s.mode c = .leaving cur →
    IdleStep vm s { s with
      mode := Function.update s.mode c .exorcising
      state := Function.update s.state (s.curthread c) .run }
  | destroy {s c z zs} : s.mode c = .exorcising → s.zombies c = z :: zs →
    IdleStep vm s { s with
      zombies := Function.update s.zombies c zs
      live := Function.update s.live z false }
  | exorcised {s c} : s.mode c = .exorcising → s.zombies c = [] →
    IdleStep vm s { s with mode := Function.update s.mode c .running }
  /-- the timer interrupt -/
  | migrate {s c} : s.Interruptible c → s.asleep c = false → s.mig c = none → s.clearing c = false →
    IdleStep vm s { s with mig := Function.update s.mig c (some .start) }
  | migration {s c m q m'} : s.mig c = some m → (∀ d, m.locks c d → ¬ s.Locked d) →
    m.step c (s.curthread c) s.queues = .ok (q, m') →
    IdleStep vm s { s.announce m q with queues := q, mig := Function.update s.mig c (some m') }
  | migrated {s c m} : s.mig c = some m → m.pc = .finished →
    IdleStep vm s { s with mig := Function.update s.mig c none }
  /-- the interprocessor interrupt -/
  | interrupt {s c ipi calls} : s.Interruptible c → s.asleep c = false → s.mig c = none → s.clearing c = false →
    s.line c = true → interprocessorInterrupt vm (s.ipi c) = .ok (ipi, calls) →
    IdleStep vm s { s with ipi := Function.update s.ipi c ipi, clearing := Function.update s.clearing c true }
  /-- `lamebus_clear_ipi` -/
  | clear {s c} : s.clearing c = true →
    IdleStep vm s { s with line := Function.update s.line c false, clearing := Function.update s.clearing c false }

/-- The system at boot. -/
structure IdleSys.Boot {n : Nat} (s : IdleSys n) : Prop where
  threads : s.toThreadSys.Boot
  asleep : ∀ c, s.asleep c = false
  clearing : ∀ c, s.clearing c = false

section

variable {n : Nat} {vm : VmCall → Except Halt Unit} {s s' : IdleSys n} {c d : Fin n}

/-- With the interrupts left out this is the thread system. -/
lemma IdleStep.thread (st : IdleStep vm s s') :
    s'.toThreadSys = s.toThreadSys ∨ ThreadStep s.toThreadSys s'.toThreadSys := by
  cases st with
  | fork run none _ fresh free => exact .inr (.fork run none fresh free)
  | wakeone free cons => exact .inr (.wakeone free cons)
  | wakeall free => exact .inr (.wakeall free)
  | makeRunnable cons free => exact .inr (.makeRunnable cons free)
  | yield run none _ some => exact .inr (.yield run none some)
  | sleep run none _ => exact .inr (.sleep run none)
  | exit run none _ => exact .inr (.exit run none)
  | next switching cons => exact .inr (.next switching cons)
  | idle switching none => exact .inr (.idle switching none)
  | wake => exact .inl rfl
  | device => exact .inl rfl
  | unidle idle _ none _ => exact .inr (.unidle idle none)
  | switchframe leaving => exact .inr (.switchframe leaving)
  | destroy exorcising cons => exact .inr (.destroy exorcising cons)
  | exorcised exorcising none => exact .inr (.exorcised exorcising none)
  | migrate int _ none _ => exact .inr (.migrate int none)
  | migration some free step => exact .inr (.migration some free step)
  | migrated some fin => exact .inr (.migrated some fin)
  | interrupt => exact .inl rfl
  | clear => exact .inl rfl

/-- A CPU at the `wait` instruction has nothing to do, or an interrupt is on its way. -/
structure IdleSys.Inv (s : IdleSys n) : Prop where
  work : ∀ c, s.asleep c = true → s.queues.runqueue c ≠ [] → s.line c = true
  quiet : ∀ c, s.asleep c = true → s.mode c = .idle ∧ s.mig c = none ∧ s.clearing c = false
  /-- no interrupt is handled while interrupts are off -/
  off : ∀ c, ¬ s.Interruptible c → s.mig c = none ∧ s.clearing c = false

namespace IdleSys

/-- A CPU that is busy is awake. -/
lemma Inv.awake (inv : s.Inv) (busy : s.mode c ≠ .idle) : s.asleep c = false := by
  by_contra asleep
  exact busy (inv.quiet c (Bool.eq_true_of_not_eq_false asleep)).1

/-- So is one that migrates threads. -/
lemma Inv.awake_of_mig (inv : s.Inv) {m : Migration} (mig : s.mig c = some m) : s.asleep c = false := by
  by_contra asleep
  rw [(inv.quiet c (Bool.eq_true_of_not_eq_false asleep)).2.1] at mig
  cases mig

/-- Which can be interrupted. -/
lemma Inv.interruptible (inv : s.Inv) {m : Migration} (mig : s.mig c = some m) : s.Interruptible c := by
  by_contra dark
  rw [(inv.off c dark).1] at mig
  cases mig

/-- A CPU that clears the line is awake. -/
lemma Inv.awake_of_clearing (inv : s.Inv) (clearing : s.clearing c = true) : s.asleep c = false := by
  by_contra asleep
  rw [(inv.quiet c (Bool.eq_true_of_not_eq_false asleep)).2.2] at clearing
  cases clearing

/-- What a CPU has done that is not waiting is no concern of the others, but for their run queues. -/
lemma Inv.own (inv : s.Inv) (awake : s'.asleep c = false) (asleep : ∀ d ≠ c, s'.asleep d = s.asleep d)
    (mode : ∀ d ≠ c, s'.mode d = s.mode d) (mig : ∀ d ≠ c, s'.mig d = s.mig d)
    (clearing : ∀ d ≠ c, s'.clearing d = s.clearing d)
    (work : ∀ d ≠ c, s.asleep d = true → s'.queues.runqueue d ≠ [] → s'.line d = true)
    (off : ¬ s'.Interruptible c → s'.mig c = none ∧ s'.clearing c = false) : s'.Inv := by
  have other {d : Fin n} (waits : s'.asleep d = true) : d ≠ c := by
    rintro rfl
    rw [awake] at waits
    cases waits
  refine ⟨?_, ?_, ?_⟩
  · intro d waits some
    have ne := other waits
    rw [asleep d ne] at waits
    exact work d ne waits some
  · intro d waits
    have ne := other waits
    rw [asleep d ne] at waits
    rw [mode d ne, mig d ne, clearing d ne]
    exact inv.quiet d waits
  · intro d dark
    by_cases here : d = c
    · rw [here] at dark ⊢
      exact off dark
    · rw [ThreadSys.Interruptible, mode d here] at dark
      rw [mig d here, clearing d here]
      exact inv.off d dark

/-- An idle CPU is interrupted. -/
lemma unidle_line (idle : s.mode d = .idle) : (s.unidle d).line d = true := by
  rw [unidle, idle]
  exact Function.update_self ..

/-- The other lines stay. -/
lemma unidle_line_of_ne (ne : c ≠ d) : (s.unidle d).line c = s.line c := by
  rw [unidle]
  split_ifs
  · exact Function.update_of_ne ne ..
  · rfl

end IdleSys

/-- The loop that sends threads to a CPU has nothing to do with the run queues of the others. -/
lemma sendLoop_runqueue {cur : Tid} {oneShare k k' : Nat} {q q' : Queues n} {vs vs' : List Tid}
    (run : sendLoop cur c oneShare k q vs = .ok (k', q', vs')) (ne : d ≠ c) : q'.runqueue d = q.runqueue d := by
  induction k generalizing q vs with
  | zero =>
    rw [sendLoop] at run
    cases run
    rfl
  | succ k ih =>
    rw [sendLoop] at run
    split at run
    next room =>
      cases vs with
      | nil => cases run
      | cons t vs =>
        simp only [remhead] at run
        split at run
        next same => exact ih run
        next other => exact (ih run).trans (Function.update_of_ne ne ..)
    next full =>
      cases run
      rfl

/-- A critical section that changes the run queue of another CPU sends threads to it. -/
lemma Migration.step_runqueue {cur : Tid} {q q' : Queues n} {m m' : Migration} (run : m.step c cur q = .ok (q', m'))
    (ne : d ≠ c) (changed : q'.runqueue d ≠ q.runqueue d) : m.pc = .send d.val := by
  have set_of_ne (own : List Tid) : (q.set c own).runqueue d = q.runqueue d := Function.update_of_ne ne ..
  obtain ⟨pc, my, total, share, k, vs⟩ := m
  cases pc with
  | count i =>
    rw [Migration.step] at run
    dsimp only at run
    split_ifs at run <;> cases run <;> exact absurd rfl changed
  | take =>
    obtain ⟨⟨own, victims⟩, -, eq⟩ := bind_ok_iff.1 run
    cases eq
    exact absurd (set_of_ne own) changed
  | send i =>
    rw [Migration.step] at run
    dsimp only at run
    split_ifs at run with more self
    · cases run
      exact absurd rfl changed
    · obtain ⟨⟨k', q₁, vs'⟩, sent, eq⟩ := bind_ok_iff.1 run
      cases eq
      by_cases here : d = ⟨i, more.1⟩
      · rw [here]
      · exact absurd (sendLoop_runqueue sent here) changed
    · cases run
      exact absurd rfl changed
  | leftover =>
    rw [Migration.step, putBack_eq] at run
    cases run
    exact absurd (set_of_ne _) changed
  | finished =>
    cases run
    exact absurd rfl changed

namespace IdleSys

/-- A thread is put into a queue, and the CPU is told. -/
lemma Inv.makeRunnable (inv : s.Inv) {a : Nat} {t : Tid} {ts : List Tid} :
    Inv { s with
      queues := s.queues.set d (s.queues.runqueue d ++ [t])
      hand := Function.update s.hand a ts
      ipi := (s.unidle d).ipi
      line := (s.unidle d).line } := by
  refine ⟨fun c waits some => ?_, inv.quiet, inv.off⟩
  have waits : s.asleep c = true := waits
  show (s.unidle d).line c = true
  by_cases here : c = d
  · rw [here] at waits ⊢
    exact unidle_line (inv.quiet d waits).1
  · rw [unidle_line_of_ne here]
    refine inv.work c waits ?_
    have same : (s.queues.set d (s.queues.runqueue d ++ [t])).runqueue c = s.queues.runqueue c :=
      Function.update_of_ne here ..
    rwa [same] at some

/-- A step of the migration tells the CPUs that get threads. -/
lemma Inv.migration (inv : s.Inv) {m m' : Migration} {q : Queues n} (mig : s.mig c = some m)
    (step : m.step c (s.curthread c) s.queues = .ok (q, m')) :
    Inv { s.announce m q with queues := q, mig := Function.update s.mig c (some m') } := by
  refine inv.own (c := c) (inv.awake_of_mig mig) (fun _ _ => rfl) (fun _ _ => rfl)
    (fun d ne => Function.update_of_ne ne ..) (fun _ _ => rfl) ?_ (fun dark => absurd (inv.interruptible mig) dark)
  intro d ne waits some
  have idle := (inv.quiet d waits).1
  show (if Announces m s.queues q d then (s.unidle d).line d else s.line d) = true
  split_ifs with announces
  · exact unidle_line idle
  · refine inv.work d waits fun none => ?_
    have some : q.runqueue d ≠ [] := some
    have changed : q.runqueue d ≠ s.queues.runqueue d := by rwa [none]
    exact announces ⟨Migration.step_runqueue step ne changed, changed⟩

/-- All CPUs are awake at boot. -/
lemma Boot.inv (boot : s.Boot) : s.Inv := by
  refine ⟨?_, ?_, fun c _ => ⟨boot.threads.mig c, boot.clearing c⟩⟩
  · intro c waits
    rw [boot.asleep] at waits
    cases waits
  · intro c waits
    rw [boot.asleep] at waits
    cases waits

/-- The CPU has nothing to do, and waits. -/
lemma Inv.idle (inv : s.Inv) (switching : s.mode c = .switching) (none : s.queues.runqueue c = []) :
    Inv { s with mode := Function.update s.mode c .idle, asleep := Function.update s.asleep c true } := by
  have dark : ¬ s.Interruptible c := by
    rintro (run | idle)
    · rw [run] at switching
      cases switching
    · rw [idle] at switching
      cases switching
  refine ⟨?_, ?_, ?_⟩
  · intro d waits some
    by_cases here : d = c
    · rw [here] at some
      exact absurd none some
    · have waits : Function.update s.asleep c true d = true := waits
      rw [Function.update_of_ne here] at waits
      exact inv.work d waits some
  · intro d waits
    show Function.update s.mode c .idle d = .idle ∧ _
    by_cases here : d = c
    · rw [here, Function.update_self]
      exact ⟨rfl, inv.off c dark⟩
    · have waits : Function.update s.asleep c true d = true := waits
      rw [Function.update_of_ne here] at waits ⊢
      exact inv.quiet d waits
  · intro d dark'
    by_cases here : d = c
    · rw [here]
      exact inv.off c dark
    · refine inv.off d fun int => dark' ?_
      show Function.update s.mode c .idle d = .running ∨ Function.update s.mode c .idle d = .idle
      rw [Function.update_of_ne here]
      exact int

/-- A CPU changes its mode, and does nothing else that matters to other CPUs. -/
lemma Inv.setMode (inv : s.Inv) {mode : CpuMode} (awake : s.asleep c = false)
    (none : s.mig c = none) (clearing : s.clearing c = false) {q : Queues n}
    (work : ∀ d ≠ c, q.runqueue d = s.queues.runqueue d) {t : ThreadSys n} (queues : t.queues = q)
    (modes : t.mode = Function.update s.mode c mode) (mig : t.mig = s.mig) : Inv { s with toThreadSys := t } := by
  refine inv.own (c := c) awake (fun _ _ => rfl) ?_ ?_ (fun _ _ => rfl) ?_ ?_
  · intro d ne
    rw [modes]
    exact Function.update_of_ne ne ..
  · intro d _
    rw [mig]
  · intro d ne waits some
    rw [queues, work d ne] at some
    exact inv.work d waits some
  · intro _
    rw [mig]
    exact ⟨none, clearing⟩

/-- Every step keeps the invariant. -/
lemma Inv.step (inv : s.Inv) (st : IdleStep vm s s') : s'.Inv := by
  have off {c : Fin n} {mode : CpuMode} (h : s.mode c = mode) (run : mode ≠ .running) (idle : mode ≠ .idle) :
      s.asleep c = false ∧ s.mig c = none ∧ s.clearing c = false := by
    subst h
    exact ⟨inv.awake idle, inv.off c (not_or.2 ⟨run, idle⟩)⟩
  have set_of_ne {c : Fin n} {ts : List Tid} : ∀ d ≠ c, (s.queues.set c ts).runqueue d = s.queues.runqueue d :=
    fun d ne => Function.update_of_ne ne ..
  cases st with
  | fork => exact ⟨inv.work, inv.quiet, inv.off⟩
  | wakeone => exact ⟨inv.work, inv.quiet, inv.off⟩
  | wakeall => exact ⟨inv.work, inv.quiet, inv.off⟩
  | makeRunnable => exact inv.makeRunnable
  | yield run none clearing _ =>
    exact inv.setMode (inv.awake (by rw [run]; exact nofun)) none clearing set_of_ne rfl rfl rfl
  | sleep run none clearing =>
    exact inv.setMode (inv.awake (by rw [run]; exact nofun)) none clearing (fun _ _ => rfl) rfl rfl rfl
  | exit run none clearing =>
    exact inv.setMode (inv.awake (by rw [run]; exact nofun)) none clearing (fun _ _ => rfl) rfl rfl rfl
  | next switching _ =>
    obtain ⟨awake, none, clearing⟩ := off switching nofun nofun
    exact inv.setMode awake none clearing set_of_ne rfl rfl rfl
  | idle switching none => exact inv.idle switching none
  | @wake c _ _ =>
    refine inv.own (c := c) (Function.update_self ..) (fun _ ne => Function.update_of_ne ne ..) (fun _ _ => rfl)
      (fun _ _ => rfl) (fun _ _ => rfl) (fun d _ => inv.work d) (inv.off c)
  | @device c _ =>
    refine inv.own (c := c) (Function.update_self ..) (fun _ ne => Function.update_of_ne ne ..) (fun _ _ => rfl)
      (fun _ _ => rfl) (fun _ _ => rfl) (fun d _ => inv.work d) (inv.off c)
  | unidle _ awake none clearing => exact inv.setMode awake none clearing (fun _ _ => rfl) rfl rfl rfl
  | switchframe leaving =>
    obtain ⟨awake, none, clearing⟩ := off leaving nofun nofun
    exact inv.setMode awake none clearing (fun _ _ => rfl) rfl rfl rfl
  | destroy => exact ⟨inv.work, inv.quiet, inv.off⟩
  | exorcised exorcising _ =>
    obtain ⟨awake, none, clearing⟩ := off exorcising nofun nofun
    exact inv.setMode awake none clearing (fun _ _ => rfl) rfl rfl rfl
  | migrate int awake _ _ =>
    exact inv.own awake (fun _ _ => rfl) (fun _ _ => rfl) (fun _ ne => Function.update_of_ne ne ..) (fun _ _ => rfl)
      (fun d _ => inv.work d) (fun dark => absurd int dark)
  | migration mig _ step => exact inv.migration mig step
  | migrated mig _ =>
    exact inv.own (inv.awake_of_mig mig) (fun _ _ => rfl) (fun _ _ => rfl) (fun _ ne => Function.update_of_ne ne ..)
      (fun _ _ => rfl) (fun d _ => inv.work d) (fun dark => absurd (inv.interruptible mig) dark)
  | interrupt int awake =>
    exact inv.own awake (fun _ _ => rfl) (fun _ _ => rfl) (fun _ _ => rfl) (fun _ ne => Function.update_of_ne ne ..)
      (fun d _ => inv.work d) (fun dark => absurd int dark)
  | @clear c clearing =>
    exact inv.own (inv.awake_of_clearing clearing) (fun _ _ => rfl) (fun _ _ => rfl) (fun _ _ => rfl)
      (fun _ ne => Function.update_of_ne ne ..)
      (fun d ne waits some => (Function.update_of_ne ne ..).trans (inv.work d waits some))
      (fun dark => ⟨(inv.off c dark).1, Function.update_self ..⟩)

/-- The run lemma. -/
lemma Boot.run (boot : s.Boot) (run : Relation.ReflTransGen (IdleStep vm) s s') :
    s'.Inv ∧ s'.toThreadSys.Inv := by
  induction run with
  | refl => exact ⟨boot.inv, boot.threads.inv⟩
  | tail _ st ih =>
    refine ⟨ih.1.step st, ?_⟩
    obtain same | st' := st.thread
    · rw [same]
      exact ih.2
    · exact ih.2.step st'

/-- A CPU that waits, with a thread on its run queue, goes on to dispatch the thread: the interrupt ends the `wait`
instruction, and the run queue is looked at again. -/
lemma Inv.dispatches (inv : s.Inv) {t : Tid} {ts : List Tid} (waits : s.asleep c = true)
    (cons : s.queues.runqueue c = t :: ts) :
    ∃ s', Relation.ReflTransGen (IdleStep vm) s s' ∧ s'.mode c = .leaving (s.curthread c) ∧ s'.curthread c = t ∧
      s'.queues.runqueue c = ts ∧
      ∀ d ≠ c, s'.mode d = s.mode d ∧ s'.curthread d = s.curthread d ∧ s'.queues.runqueue d = s.queues.runqueue d := by
  obtain ⟨idle, none, clearing⟩ := inv.quiet c waits
  have line : s.line c = true := inv.work c waits (by rw [cons]; exact nofun)
  have wakes : Relation.ReflTransGen (IdleStep vm) s _ := .single (.wake waits line)
  have unidles := wakes.tail (.unidle idle (Function.update_self ..) none clearing)
  have dispatches := unidles.tail (.next (Function.update_self ..) cons)
  refine ⟨_, dispatches, Function.update_self .., Function.update_self .., Function.update_self .., ?_⟩
  intro d ne
  refine ⟨?_, Function.update_of_ne ne .., Function.update_of_ne ne ..⟩
  exact (Function.update_of_ne ne ..).trans (Function.update_of_ne ne ..)

end IdleSys

/-- No CPU waits with work to do: while there is a thread on the run queue of a CPU that is at the `wait` instruction,
its interrupt line is asserted, and by its own steps alone it goes on to dispatch the thread. And with interrupts the
thread system is as safe as without. -/
theorem idle_cpus_wake {s₀ : IdleSys n} (boot : s₀.Boot) (run : Relation.ReflTransGen (IdleStep vm) s₀ s) :
    (∀ c, s.asleep c = true → s.queues.runqueue c ≠ [] → s.line c = true) ∧
      (∀ c t ts, s.asleep c = true → s.queues.runqueue c = t :: ts →
        ∃ s', Relation.ReflTransGen (IdleStep vm) s s' ∧ s'.mode c = .leaving (s.curthread c) ∧ s'.curthread c = t ∧
          s'.queues.runqueue c = ts ∧ ∀ d ≠ c, s'.mode d = s.mode d ∧ s'.curthread d = s.curthread d ∧
            s'.queues.runqueue d = s.queues.runqueue d) ∧
      s.toThreadSys.Safe := by
  obtain ⟨inv, threads⟩ := boot.run run
  exact ⟨inv.work, fun c t ts waits cons => inv.dispatches waits cons, threads.safe⟩

/-- The two CPUs of `twoCpus`, with interrupts. -/
def twoIdle : IdleSys 2 where
  toThreadSys := twoCpus
  asleep _ := false
  ipi _ := .create fun _ => ⟨0, 0⟩
  line _ := false
  clearing _ := false

/-- The machine of the witness has booted. -/
lemma twoIdle_boot : twoIdle.Boot := ⟨twoCpus_boot, fun _ => rfl, fun _ => rfl⟩

/-- The thread of the first of two CPUs sleeps and is woken, while its CPU waits. -/
theorem idle_cpus_wake_woken : ∃ s : IdleSys 2, s.asleep 0 = true ∧ s.queues.runqueue 0 = [0] ∧ s.line 0 = true := by
  have start : Relation.ReflTransGen (IdleStep fun _ => .ok ()) twoIdle twoIdle := .refl
  have idles := (start.tail (.sleep (c := 0) (w := 0) rfl rfl rfl)).tail (.idle (c := 0) rfl rfl)
  have woken := (idles.tail (.wakeone (a := 0) (w := 0) rfl rfl)).tail (.makeRunnable (a := 0) rfl nofun)
  exact ⟨_, rfl, rfl, (idle_cpus_wake twoIdle_boot woken).1 0 rfl nofun⟩

end

end PDS.Kern
