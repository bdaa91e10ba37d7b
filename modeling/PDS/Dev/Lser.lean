import PDS.Lib.Family

/-!
# Serial console output

Port of `lser_irq`, `lser_write` and `lser_writepolled` in `kern/dev/lamebus/lser.c`, with `putch_polled`, `putch_intr`
and `con_start` of `kern/dev/generic/console.c` as the driver above them, for any number of activities (threads, and
handlers on any CPU) on one console. An activity stops between the accesses to the semaphore, to `ls_lock`, to `ls_wbusy`
and to the registers (`LserPc`); any of them, or the device, may make the next step (`LserStep`). The device raises its
write-ready condition once for each character, and keeps it until it is cleared. A poll that does not find the condition
is no step, and neither is a `P` that has to wait. Characters are of any type `C`.
-/

namespace PDS.Dev
open Family

/-- Where an activity is. -/
inductive LserPc (C : Type) where
  | out
  /-- after `P(cs_wsem)`; before `lser_write` has `ls_lock` -/
  | write (ch : C)
  /-- before `ls_wbusy` is tested -/
  | writeTest (ch : C)
  /-- before `ls_wbusy` is set -/
  | writeBusy (ch : C)
  /-- before the character is written -/
  | writeChar (ch : C)
  /-- before `ls_lock` is released -/
  | writeDone
  /-- `panic("lser: Not clear to write\n")` -/
  | panic
  /-- before `lser_irq` has `ls_lock` -/
  | irq
  /-- before the write interrupt status is read -/
  | irqWrite
  /-- the condition is there; before `ls_wbusy` is cleared -/
  | irqBusy
  /-- before the condition is cleared -/
  | irqClear
  /-- before the read side is looked at, with `clear_to_write` -/
  | irqRead (clear : Bool)
  /-- before `ls_lock` is released, with the character that has been read -/
  | irqDone (clear : Bool) (got : Option C)
  /-- before `con_start`, if `clear_to_write`, and then `con_input` -/
  | irqStart (clear : Bool) (got : Option C)
  /-- before `lser_writepolled` has `ls_lock` -/
  | polled (ch : C)
  /-- before `ls_wbusy` is tested -/
  | polledTest (ch : C)
  /-- in the first `lser_poll_until_write` -/
  | polledWait (ch : C)
  /-- before the condition is cleared -/
  | polledReady (ch : C)
  /-- before the character is written, with `irqpending` -/
  | polledChar (ch : C) (pending : Bool)
  /-- in the second `lser_poll_until_write` -/
  | polledSent (pending : Bool)
  /-- before the condition is cleared again -/
  | polledClear
  /-- before `ls_lock` is released -/
  | polledDone
deriving DecidableEq

namespace LserPc

variable {C : Type}

/-- The activity holds `ls_lock`. -/
def locked : LserPc C → Bool
  | out | write _ | irq | irqStart _ _ | polled _ => false
  | _ => true

/-- Between `P(cs_wsem)` and the moment when `lser_write` sets `ls_wbusy`. -/
def between : LserPc C → Bool
  | write _ | writeTest _ | writeBusy _ => true
  | _ => false

/-- `lser_irq` has cleared `ls_wbusy`, and is to call `con_start`. -/
def starting : LserPc C → Bool
  | irqClear | irqRead true | irqDone true _ | irqStart true _ => true
  | _ => false

/-- The tokens that the activity has. -/
def tokens (p : LserPc C) : Nat := p.between.toNat + p.starting.toNat

end LserPc

/-- The driver and the device (C `struct lser_softc`), and the semaphore `cs_wsem`. -/
structure Lser (T C : Type) where
  wsem : Nat
  wbusy : Bool
  lock : Option T
  /-- `LSER_IRQ_ACTIVE` in the write interrupt status -/
  ready : Bool
  /-- the character that the device sends -/
  sending : Option C
  sent : List C
  /-- the character that the device has received -/
  input : Option C
  pc : T → LserPc C

variable {T C : Type} [DecidableEq T]

/-- The activity `t` goes on to `pc`. -/
def Lser.goto (s : Lser T C) (t : T) (pc : LserPc C) : Lser T C := { s with pc := Function.update s.pc t pc }

/-- `ls_lock` is taken or released. -/
def Lser.setLock (s : Lser T C) (lock : Option T) : Lser T C := { s with lock }

/-- `ls_wbusy` is set. -/
def Lser.setBusy (s : Lser T C) (wbusy : Bool) : Lser T C := { s with wbusy }

/-- The write interrupt status is written. -/
def Lser.clearReady (s : Lser T C) : Lser T C := { s with ready := false }

/-- The character register is written. -/
def Lser.putChar (s : Lser T C) (ch : C) : Lser T C := { s with sending := some ch }

/-- One step of an activity, or of the device. -/
inductive LserStep : Lser T C → Lser T C → Prop where
  /-- `putch_intr`: `P(cs_wsem)` -/
  | putchIntr {s t ch} : s.pc t = .out → 0 < s.wsem →
    LserStep s { s.goto t (.write ch) with wsem := s.wsem - 1 }
  | writeLock {s t ch} : s.pc t = .write ch → s.lock = none → LserStep s ((s.goto t (.writeTest ch)).setLock (some t))
  | writeTest {s t ch} : s.pc t = .writeTest ch →
    LserStep s (s.goto t (if s.wbusy then .panic else .writeBusy ch))
  | writeBusy {s t ch} : s.pc t = .writeBusy ch → LserStep s ((s.goto t (.writeChar ch)).setBusy true)
  | writeChar {s t ch} : s.pc t = .writeChar ch → LserStep s ((s.goto t .writeDone).putChar ch)
  | writeUnlock {s t} : s.pc t = .writeDone → LserStep s ((s.goto t .out).setLock none)
  /-- `lser_irq` is called -/
  | irq {s t} : s.pc t = .out → LserStep s (s.goto t .irq)
  | irqLock {s t} : s.pc t = .irq → s.lock = none → LserStep s ((s.goto t .irqWrite).setLock (some t))
  | irqWrite {s t} : s.pc t = .irqWrite → LserStep s (s.goto t (if s.ready then .irqBusy else .irqRead false))
  | irqBusy {s t} : s.pc t = .irqBusy → LserStep s ((s.goto t .irqClear).setBusy false)
  | irqClear {s t} : s.pc t = .irqClear → LserStep s ((s.goto t (.irqRead true)).clearReady)
  /-- the read interrupt status and the character are read, and the status is cleared -/
  | irqRead {s t clear} : s.pc t = .irqRead clear →
    LserStep s { s.goto t (.irqDone clear s.input) with input := none }
  | irqUnlock {s t clear got} : s.pc t = .irqDone clear got →
    LserStep s ((s.goto t (.irqStart clear got)).setLock none)
  /-- `con_start`: `V(cs_wsem)` -/
  | conStart {s t got} : s.pc t = .irqStart true got →
    LserStep s { s.goto t (.irqStart false got) with wsem := s.wsem + 1 }
  /-- `con_input` is called, if a character has been read -/
  | conInput {s t got} : s.pc t = .irqStart false got → LserStep s (s.goto t .out)
  /-- `putch_polled` is called -/
  | putchPolled {s t ch} : s.pc t = .out → LserStep s (s.goto t (.polled ch))
  | polledLock {s t ch} : s.pc t = .polled ch → s.lock = none →
    LserStep s ((s.goto t (.polledTest ch)).setLock (some t))
  | polledTest {s t ch} : s.pc t = .polledTest ch →
    LserStep s (s.goto t (if s.wbusy then .polledWait ch else .polledChar ch false))
  | polledWait {s t ch} : s.pc t = .polledWait ch → s.ready = true → LserStep s (s.goto t (.polledReady ch))
  | polledReady {s t ch} : s.pc t = .polledReady ch → LserStep s ((s.goto t (.polledChar ch true)).clearReady)
  | polledChar {s t ch pending} : s.pc t = .polledChar ch pending →
    LserStep s ((s.goto t (.polledSent pending)).putChar ch)
  | polledSent {s t pending} : s.pc t = .polledSent pending → s.ready = true →
    LserStep s (s.goto t (if pending then .polledDone else .polledClear))
  | polledClear {s t} : s.pc t = .polledClear → LserStep s ((s.goto t .polledDone).clearReady)
  | polledUnlock {s t} : s.pc t = .polledDone → LserStep s ((s.goto t .out).setLock none)
  /-- the device has sent its character -/
  | deviceSent {s ch} : s.sending = some ch →
    LserStep s { s with ready := true, sending := none, sent := ch :: s.sent }
  /-- the device receives a character -/
  | deviceInput {s ch} : LserStep s { s with input := some ch }

/-- The driver after `config_lser`, with `cs_wsem` at 1. -/
def configLser : Lser T C := ⟨1, false, none, false, none, [], none, fun _ => .out⟩

/-- The states of the runs. -/
inductive LserReach : Lser T C → Prop where
  | config : LserReach configLser
  | step {s s'} : LserReach s → LserStep s s' → LserReach s'

/-- The characters that the device has not reported yet, or whose report has not been cleared. -/
def Lser.load (s : Lser T C) : Nat := s.sending.isSome.toNat + s.ready.toNat

/-- The device is at work, or has a report, for `ls_wbusy`. -/
def Lser.Settled (s : Lser T C) : Prop := s.load = s.wbusy.toNat

/-- The device has a report. -/
def Lser.Reports (s : Lser T C) : Prop := s.ready = true ∧ s.sending = none

/-- What holds while an activity at `pc` holds `ls_lock`. -/
def Lser.Phase (s : Lser T C) : LserPc C → Prop
  | .writeBusy _ => s.wbusy = false ∧ s.load = 0
  | .writeChar _ => s.wbusy = true ∧ s.load = 0
  | .panic => False
  | .irqBusy => s.wbusy = true ∧ s.Reports
  | .irqClear => s.wbusy = false ∧ s.Reports
  | .polledWait _ => s.wbusy = true ∧ s.load = 1
  | .polledReady _ => s.wbusy = true ∧ s.Reports
  | .polledChar _ pending => s.wbusy = pending ∧ s.load = 0
  | .polledSent pending => s.wbusy = pending ∧ s.load = 1
  | .polledClear => s.wbusy = false ∧ s.Reports
  | _ => s.Settled

/-- What holds while `lock` is the holder of `ls_lock`. -/
def Lser.Owned (s : Lser T C) : Option T → Prop
  | none => s.Settled
  | some t => s.Phase (s.pc t)

/-- The number of tokens that the activities have. -/
def Lser.tokens [Fintype T] (s : Lser T C) : Nat :=
  s.wsem + tally LserPc.between s.pc + s.wbusy.toNat + tally LserPc.starting s.pc

/-- The invariant of the runs. -/
structure Lser.Inv [Fintype T] (s : Lser T C) : Prop where
  holds : Holds LserPc.locked s.pc s.lock
  owned : s.Owned s.lock
  token : s.tokens = 1

section

variable [Fintype T] {s s' : Lser T C} {t : T} {p : LserPc C}

/-- The tokens after one activity has gone on. -/
lemma Lser.tokens_goto (pc : s'.pc = Function.update s.pc t p) :
    s'.tokens + (s.pc t).tokens + s.wsem + s.wbusy.toNat = s.tokens + p.tokens + s'.wsem + s'.wbusy.toNat := by
  have between := tally_update LserPc.between s.pc t p
  have starting := tally_update LserPc.starting s.pc t p
  rw [tokens, tokens, LserPc.tokens, LserPc.tokens, pc]
  omega

/-- The activity moves its tokens. -/
lemma Lser.Inv.move (h : s.Inv) (pc : s'.pc = Function.update s.pc t p)
    (moves : s'.wsem + s'.wbusy.toNat + p.tokens = s.wsem + s.wbusy.toNat + (s.pc t).tokens) : s'.tokens = 1 := by
  have tokens := tokens_goto pc
  have one := h.token
  omega

omit [DecidableEq T] in
/-- An activity that has a token leaves none for `ls_wbusy`. -/
lemma Lser.Inv.idle (h : s.Inv) (here : (s.pc t).between = true) : s.wbusy = false := by
  have pos := tally_pos here
  have one := h.token
  rw [tokens] at one
  cases busy : s.wbusy with
  | false => rfl
  | true =>
    rw [busy, Bool.toNat_true] at one
    omega

omit [DecidableEq T] in
/-- The one that holds `ls_lock` is in its phase. -/
lemma Lser.Inv.phase (h : s.Inv) (here : (s.pc t).locked = true) : s.lock = some t ∧ s.Phase (s.pc t) := by
  have own : s.lock = some t := (h.holds t).1 here
  have owned := h.owned
  rw [own] at owned
  exact ⟨own, owned⟩

omit [DecidableEq T] in
/-- An activity that is at a place where it holds `ls_lock`, and what holds at that place. -/
lemma Lser.Inv.here (h : s.Inv) (pc : s.pc t = p) (locked : p.locked = true) :
    (s.pc t).locked = true ∧ s.Phase p := by
  subst pc
  exact ⟨locked, (h.phase locked).2⟩

/-- The holder of `ls_lock` goes on. -/
lemma Lser.Inv.on (h : s.Inv) (here : (s.pc t).locked = true) (pc : s'.pc = Function.update s.pc t p)
    (still : p.locked = true) (lock : s'.lock = s.lock) (phase : s'.Phase p)
    (moves : s'.wsem + s'.wbusy.toNat + p.tokens = s.wsem + s.wbusy.toNat + (s.pc t).tokens) : s'.Inv := by
  refine ⟨?_, ?_, h.move pc moves⟩
  · rw [pc, lock]
    exact h.holds.keep (still.trans here.symm)
  · rw [lock, (h.phase here).1]
    change s'.Phase (s'.pc t)
    rw [pc, Function.update_self]
    exact phase

/-- An activity takes `ls_lock`. -/
lemma Lser.Inv.take (h : s.Inv) (free : s.lock = none) (locked : p.locked = true)
    (phase : s.Settled → s.Phase p) (moves : p.tokens = (s.pc t).tokens) : ((s.goto t p).setLock (some t)).Inv := by
  have holds := h.holds
  have owned := h.owned
  rw [free] at holds owned
  refine ⟨holds.acquire locked, ?_, h.move rfl (congrArg _ moves)⟩
  change Phase _ (Function.update s.pc t p t)
  rw [Function.update_self]
  cases p <;> exact phase owned

/-- The holder of `ls_lock` releases it. -/
lemma Lser.Inv.give (h : s.Inv) (here : (s.pc t).locked = true) (outside : p.locked = false)
    (settled : s.Settled) (moves : p.tokens = (s.pc t).tokens) : ((s.goto t p).setLock none).Inv :=
  ⟨h.holds.release here outside, settled, h.move rfl (congrArg _ moves)⟩

/-- An activity goes on without `ls_lock`. -/
lemma Lser.Inv.outside (h : s.Inv) (there : (s.pc t).locked = false) (outside : p.locked = false) (wsem : Nat)
    (moves : wsem + p.tokens = s.wsem + (s.pc t).tokens) : { s.goto t p with wsem }.Inv := by
  refine ⟨h.holds.keep (outside.trans there.symm), ?_, h.move rfl ?_⟩
  · have holds := h.holds
    have owned := h.owned
    change Owned _ s.lock
    cases lock : s.lock with
    | none =>
      rw [lock] at owned
      exact owned
    | some u =>
      rw [lock] at owned
      have ne : u ≠ t := by
        intro e
        rw [← e, (holds u).2 lock] at there
        exact nomatch there
      change Phase _ (Function.update s.pc t p u)
      rw [Function.update_of_ne ne]
      exact owned
  · change wsem + s.wbusy.toNat + p.tokens = _
    omega

omit [DecidableEq T] in
/-- The device makes a step. -/
lemma Lser.Inv.device (h : s.Inv) (pc : s'.pc = s.pc) (lock : s'.lock = s.lock) (wsem : s'.wsem = s.wsem)
    (wbusy : s'.wbusy = s.wbusy) (load : s'.load = s.load) (reports : s.Reports → s'.Reports) : s'.Inv := by
  refine ⟨?_, ?_, ?_⟩
  · rw [pc, lock]
    exact h.holds
  · have owned := h.owned
    rw [lock]
    cases e : s.lock with
    | none =>
      rw [e] at owned
      change s'.load = _
      rw [load, wbusy]
      exact owned
    | some t =>
      rw [e] at owned
      change s'.Phase (s'.pc t)
      change s.Phase (s.pc t) at owned
      rw [pc]
      cases at_ : s.pc t <;> rw [at_] at owned <;> simp only [Phase, Settled, wbusy, load] at owned ⊢ <;>
        first | exact owned | exact ⟨owned.1, reports owned.2⟩
  · rw [tokens, pc, wsem, wbusy]
    exact h.token

omit [DecidableEq T] [Fintype T] in
/-- A report of the device is one token. -/
lemma Lser.load_of_reports (h : s.Reports) : s.load = 1 := by
  rw [load, h.1, h.2]
  rfl

omit [DecidableEq T] [Fintype T] in
/-- One token with the device ready is its report. -/
lemma Lser.reports_of_ready (load : s.load = 1) (ready : s.ready = true) : s.Reports := by
  refine ⟨ready, ?_⟩
  rw [Lser.load, ready] at load
  cases sending : s.sending with
  | none => rfl
  | some ch =>
    rw [sending] at load
    exact nomatch load

omit [DecidableEq T] [Fintype T] in
/-- Reading the report takes the token. -/
lemma Lser.load_clear (h : s.Reports) : s.clearReady.load = 0 := by
  change s.sending.isSome.toNat + 0 = 0
  rw [h.2]
  rfl

omit [DecidableEq T] [Fintype T] in
/-- A character makes a token. -/
lemma Lser.load_put (h : s.load = 0) (ch : C) : (s.putChar ch).load = 1 := by
  have ready : s.ready.toNat = 0 := Nat.eq_zero_of_add_eq_zero_left h
  change 1 + s.ready.toNat = 1
  rw [ready]

omit [DecidableEq T] [Fintype T] in
/-- A report is one for `ls_wbusy`. -/
lemma Lser.Settled.busy (h : s.Settled) (ready : s.ready = true) : s.wbusy = true := by
  rw [Settled, load, ready, Bool.toNat_true] at h
  cases busy : s.wbusy with
  | true => rfl
  | false =>
    rw [busy, Bool.toNat_false] at h
    exact nomatch h

omit [DecidableEq T] [Fintype T] in
/-- There is at most one token in between. -/
lemma Lser.Settled.load_le (h : s.Settled) : s.load ≤ 1 := h.trans_le (Bool.toNat_le _)

omit [DecidableEq T] [Fintype T] in
/-- And in every phase. -/
lemma Lser.Phase.load_le (h : s.Phase p) : s.load ≤ 1 := by
  cases p with
  | writeBusy ch => exact h.2.trans_le zero_le_one
  | writeChar ch => exact h.2.trans_le zero_le_one
  | panic => exact h.elim
  | irqBusy => exact (load_of_reports h.2).le
  | irqClear => exact (load_of_reports h.2).le
  | polledWait ch => exact h.2.le
  | polledReady ch => exact (load_of_reports h.2).le
  | polledChar ch pending => exact h.2.trans_le zero_le_one
  | polledSent pending => exact h.2.le
  | polledClear => exact (load_of_reports h.2).le
  | _ => exact Settled.load_le h

omit [DecidableEq T] in
/-- The device has not more than one character. -/
lemma Lser.Inv.load_le (h : s.Inv) : s.load ≤ 1 := by
  have owned := h.owned
  cases lock : s.lock with
  | none =>
    rw [lock] at owned
    exact Settled.load_le owned
  | some t =>
    rw [lock] at owned
    exact Phase.load_le owned

omit [DecidableEq T] in
/-- The device is ready at the start. -/
lemma Lser.Inv.config : (configLser : Lser T C).Inv := by
  refine ⟨fun t => iff_of_false nofun nofun, rfl, ?_⟩
  have between : tally LserPc.between (fun _ : T => (.out : LserPc C)) = 0 := Finset.sum_const_zero
  have starting : tally LserPc.starting (fun _ : T => (.out : LserPc C)) = 0 := Finset.sum_const_zero
  change 1 + tally LserPc.between (fun _ : T => (.out : LserPc C)) + 0 + tally LserPc.starting (fun _ : T => .out) = 1
  rw [between, starting]

/-- The invariant holds after each step. -/
lemma Lser.Inv.step (h : s.Inv) (step : LserStep s s') : s'.Inv := by
  cases step with
  | @putchIntr t ch pc pos =>
    refine h.outside (congrArg LserPc.locked pc) rfl _ ?_
    rw [pc]
    exact Nat.sub_add_cancel pos
  | @writeLock t ch pc free =>
    refine h.take free rfl id ?_
    rw [pc]
    rfl
  | @writeTest t ch pc =>
    have idle := h.idle (t := t) (congrArg LserPc.between pc)
    obtain ⟨here, settled⟩ := h.here pc rfl
    rw [if_neg (Bool.eq_false_iff.1 idle)]
    refine h.on here rfl rfl rfl ⟨idle, ?_⟩ ?_
    · exact settled.trans (congrArg Bool.toNat idle)
    · rw [pc]
      rfl
  | @writeBusy t ch pc =>
    obtain ⟨here, phase⟩ := h.here pc rfl
    refine h.on here rfl rfl rfl ⟨rfl, phase.2⟩ ?_
    rw [pc, phase.1]
    rfl
  | @writeChar t ch pc =>
    obtain ⟨here, phase⟩ := h.here pc rfl
    refine h.on here rfl rfl rfl ?_ ?_
    · exact (load_put phase.2 ch).trans (congrArg Bool.toNat phase.1).symm
    · rw [pc]
      rfl
  | @writeUnlock t pc =>
    obtain ⟨here, settled⟩ := h.here pc rfl
    refine h.give here rfl settled ?_
    rw [pc]
    rfl
  | @irq t pc =>
    refine h.outside (congrArg LserPc.locked pc) rfl _ ?_
    rw [pc]
    rfl
  | @irqLock t pc free =>
    refine h.take free rfl id ?_
    rw [pc]
    rfl
  | @irqWrite t pc =>
    obtain ⟨here, settled⟩ := h.here pc rfl
    cases ready : s.ready with
    | true =>
      have busy := settled.busy ready
      refine h.on here rfl rfl rfl ⟨busy, reports_of_ready (settled.trans (congrArg Bool.toNat busy)) ready⟩ ?_
      rw [pc]
      rfl
    | false =>
      refine h.on here rfl rfl rfl settled ?_
      rw [pc]
      rfl
  | @irqBusy t pc =>
    obtain ⟨here, phase⟩ := h.here pc rfl
    refine h.on here rfl rfl rfl ⟨rfl, phase.2⟩ ?_
    rw [pc, phase.1]
    rfl
  | @irqClear t pc =>
    obtain ⟨here, phase⟩ := h.here pc rfl
    refine h.on here rfl rfl rfl ?_ ?_
    · exact (load_clear phase.2).trans (congrArg Bool.toNat phase.1).symm
    · rw [pc]
      rfl
  | @irqRead t clear pc =>
    obtain ⟨here, settled⟩ := h.here pc rfl
    refine h.on here rfl rfl rfl settled ?_
    rw [pc]
    cases clear <;> rfl
  | @irqUnlock t clear got pc =>
    obtain ⟨here, settled⟩ := h.here pc rfl
    refine h.give here rfl settled ?_
    rw [pc]
    cases clear <;> rfl
  | @conStart t got pc =>
    refine h.outside (congrArg LserPc.locked pc) rfl _ ?_
    rw [pc]
    rfl
  | @conInput t got pc =>
    refine h.outside (congrArg LserPc.locked pc) rfl _ ?_
    rw [pc]
    rfl
  | @putchPolled t ch pc =>
    refine h.outside (congrArg LserPc.locked pc) rfl _ ?_
    rw [pc]
    rfl
  | @polledLock t ch pc free =>
    refine h.take free rfl id ?_
    rw [pc]
    rfl
  | @polledTest t ch pc =>
    obtain ⟨here, settled⟩ := h.here pc rfl
    cases busy : s.wbusy with
    | true =>
      refine h.on here rfl rfl rfl ⟨busy, settled.trans (congrArg Bool.toNat busy)⟩ ?_
      rw [pc]
      rfl
    | false =>
      refine h.on here rfl rfl rfl ⟨busy, settled.trans (congrArg Bool.toNat busy)⟩ ?_
      rw [pc]
      rfl
  | @polledWait t ch pc ready =>
    obtain ⟨here, phase⟩ := h.here pc rfl
    refine h.on here rfl rfl rfl ⟨phase.1, reports_of_ready phase.2 ready⟩ ?_
    rw [pc]
    rfl
  | @polledReady t ch pc =>
    obtain ⟨here, phase⟩ := h.here pc rfl
    refine h.on here rfl rfl rfl ⟨phase.1, load_clear phase.2⟩ ?_
    rw [pc]
    rfl
  | @polledChar t ch pending pc =>
    obtain ⟨here, phase⟩ := h.here pc rfl
    refine h.on here rfl rfl rfl ⟨phase.1, load_put phase.2 ch⟩ ?_
    rw [pc]
    rfl
  | @polledSent t pending pc ready =>
    obtain ⟨here, phase⟩ := h.here pc rfl
    cases pending with
    | true =>
      -- the report is left for the interrupt handler
      refine h.on here rfl rfl rfl (phase.2.trans (congrArg Bool.toNat phase.1).symm) ?_
      rw [pc]
      rfl
    | false =>
      refine h.on here rfl rfl rfl ⟨phase.1, reports_of_ready phase.2 ready⟩ ?_
      rw [pc]
      rfl
  | @polledClear t pc =>
    obtain ⟨here, phase⟩ := h.here pc rfl
    refine h.on here rfl rfl rfl ?_ ?_
    · exact (load_clear phase.2).trans (congrArg Bool.toNat phase.1).symm
    · rw [pc]
      rfl
  | @polledUnlock t pc =>
    obtain ⟨here, settled⟩ := h.here pc rfl
    refine h.give here rfl settled ?_
    rw [pc]
    rfl
  | @deviceSent ch sending =>
    refine h.device rfl rfl rfl rfl ?_ fun reports => ?_
    · have le := h.load_le
      rw [load, sending] at le
      have ready : s.ready.toNat = 0 := Nat.le_zero.1 (Nat.le_of_add_le_add_left le)
      change 0 + 1 = s.sending.isSome.toNat + s.ready.toNat
      rw [sending, ready]
      rfl
    · rw [reports.2] at sending
      exact nomatch sending
  | deviceInput => exact h.device rfl rfl rfl rfl rfl id

/-- The invariant holds in every state that is reached. -/
lemma LserReach.inv (reach : LserReach s) : s.Inv := by
  induction reach with
  | config => exact .config
  | step _ step ih => exact ih.step step

/-- In every run, `lser_write` does not panic, and there is one token. -/
theorem lser_token (reach : LserReach s) : (∀ t, s.pc t ≠ .panic) ∧
    s.wsem + tally LserPc.between s.pc + s.wbusy.toNat + tally LserPc.starting s.pc = 1 := by
  have inv := reach.inv
  refine ⟨fun t panic => ?_, inv.token⟩
  have phase := (inv.phase (congrArg LserPc.locked panic)).2
  rw [panic] at phase
  exact phase

end

/-- A polled write comes between a write and its interrupt, and the token is given back. -/
theorem lser_token_polled : ∃ s : Lser (Fin 2) Nat, s.sent = [8, 7] ∧ s.pc 0 = .irqStart true none ∧
    s.wsem + tally LserPc.between s.pc + s.wbusy.toNat + tally LserPc.starting s.pc = 1 := by
  have r0 : LserReach (configLser : Lser (Fin 2) Nat) := .config
  have r1 := r0.step (@LserStep.putchIntr _ _ _ _ 0 7 rfl (by decide))
  have r2 := r1.step (.writeLock (t := 0) rfl rfl)
  have r3 := r2.step (.writeTest (t := 0) rfl)
  have r4 := r3.step (.writeBusy (t := 0) rfl)
  have r5 := r4.step (.writeChar (t := 0) rfl)
  have r6 := r5.step (.writeUnlock (t := 0) rfl)
  have r7 := r6.step (@LserStep.putchPolled _ _ _ _ 1 8 rfl)
  have r8 := r7.step (.polledLock (t := 1) rfl rfl)
  have r9 := r8.step (.polledTest (t := 1) rfl)
  have r10 := r9.step (.deviceSent rfl)
  have r11 := r10.step (.polledWait (t := 1) rfl rfl)
  have r12 := r11.step (.polledReady (t := 1) rfl)
  have r13 := r12.step (.polledChar (t := 1) rfl)
  have r14 := r13.step (.deviceSent rfl)
  have r15 := r14.step (.polledSent (t := 1) rfl rfl)
  have r16 := r15.step (.polledUnlock (t := 1) rfl)
  have r17 := r16.step (.irq (t := 0) rfl)
  have r18 := r17.step (.irqLock (t := 0) rfl rfl)
  have r19 := r18.step (.irqWrite (t := 0) rfl)
  have r20 := r19.step (.irqBusy (t := 0) rfl)
  have r21 := r20.step (.irqClear (t := 0) rfl)
  have r22 := r21.step (.irqRead (t := 0) rfl)
  have r23 := r22.step (.irqUnlock (t := 0) rfl)
  exact ⟨_, rfl, rfl, (lser_token r23).2⟩

end PDS.Dev
