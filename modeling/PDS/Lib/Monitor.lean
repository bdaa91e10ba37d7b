import PDS.Lib.Family

/-!
# Condition variables

A family of threads of which some wait on a condition variable and some have been notified of it and have not run since
(`Condition`). `NotifyOne` wakes one of those that wait, when there is one, and `notifyAll` wakes all of them. `Served n`
says that a thread waits only when as many threads as there are things to be had have been notified: as long as it is
kept, nobody waits for what nobody is about to take.
-/

namespace Monitor
open Family

/-- A condition variable, by what it says about the state of one thread. -/
structure Condition (α : Type*) where
  waits : α → Bool
  notified : α → Bool
  /-- the state of a thread that waits, after it is notified -/
  wake : α → α
  wake_notified : ∀ a, waits a = true → notified (wake a) = true
  wake_runs : ∀ a, waits a = true → waits (wake a) = false
  waits_not : ∀ a, waits a = true → notified a = false

variable {ι α : Type*} {c d : Condition α} {s s' : ι → α} {i : ι} {a : α} {n : Int}

/-- Nobody waits. -/
def Condition.Nobody (c : Condition α) (s : ι → α) : Prop := ∀ i, c.waits (s i) = false

section Notify
variable [DecidableEq ι]

/-- One of the threads that wait is notified. -/
inductive NotifyOne (c : Condition α) : (ι → α) → (ι → α) → Prop where
  | nobody {s : ι → α} : c.Nobody s → NotifyOne c s s
  | one {s : ι → α} {i : ι} : c.waits (s i) = true → NotifyOne c s (Function.update s i (c.wake (s i)))

end Notify

/-- All the threads that wait are notified. -/
def notifyAll (c : Condition α) (s : ι → α) : ι → α := fun i => if c.waits (s i) then c.wake (s i) else s i

/-- The threads of one condition variable are not those of another one. -/
structure Apart (c d : Condition α) : Prop where
  waits : ∀ a, c.waits a = true → d.waits a = false
  wake_waits : ∀ a, c.waits a = true → d.waits (c.wake a) = false
  notified : ∀ a, c.waits a = true → d.notified a = false

/-- After `notifyAll` nobody waits for the condition. -/
lemma nobody_notifyAll : c.Nobody (notifyAll c s) := by
  intro i
  rw [notifyAll]
  cases w : c.waits (s i) with
  | true => exact c.wake_runs _ w
  | false => exact w

/-- If nobody waits for another condition, `notifyAll` does not change that. -/
lemma Condition.Nobody.notifyAll (none : d.Nobody s) (apart : Apart c d) : d.Nobody (notifyAll c s) := by
  intro i
  rw [Monitor.notifyAll]
  cases w : c.waits (s i) with
  | true => exact apart.wake_waits _ w
  | false => exact none i

section Update
variable [DecidableEq ι]

/-- If one that does not wait takes a step, nobody waits still. -/
lemma Condition.Nobody.update (none : c.Nobody s) (runs : c.waits a = false) : c.Nobody (Function.update s i a) := by
  intro j
  by_cases same : j = i
  · rw [same, Function.update_self]
    exact runs
  · rw [Function.update_of_ne same]
    exact none j

end Update

variable [Fintype ι]

/-- Somebody waits only when `n` threads have been notified. -/
def Served (c : Condition α) (n : Int) (s : ι → α) : Prop := (∃ i, c.waits (s i) = true) → n ≤ tally c.notified s

/-- Where nobody waits, everybody is served. -/
lemma Served.of_nobody (none : c.Nobody s) : Served c n s := by
  rintro ⟨i, w⟩
  exact absurd w (Bool.eq_false_iff.1 (none i))

/-- Where there is nothing to serve, everybody is served. -/
lemma Served.of_le (le : n ≤ 0) : Served c n s := fun _ => le.trans (Int.natCast_nonneg _)

variable [DecidableEq ι]

omit [Fintype ι] in
/-- Whoever waits after a thread has gone on without waiting has been waiting before. -/
lemma waits_of_update (runs : c.waits a = false) {j : ι} (w : c.waits (Function.update s i a j) = true) :
    c.waits (s j) = true := by
  by_cases same : j = i
  · rw [same, Function.update_self, runs] at w
    cases w
  · rw [Function.update_of_ne same] at w
    exact w

/-- A thread that had not been notified goes on. -/
lemma Served.go (h : Served c n s) (runs : c.waits a = false) (old : c.notified (s i) = false) :
    Served c n (Function.update s i a) := by
  rintro ⟨j, w⟩
  have le := h ⟨j, waits_of_update runs w⟩
  have count := tally_update c.notified s i a
  rw [old, Bool.toNat_false] at count
  omega

/-- A thread, notified or not, takes one of the things to be had. -/
lemma Served.take (h : Served c n s) (runs : c.waits a = false) : Served c (n - 1) (Function.update s i a) := by
  rintro ⟨j, w⟩
  have le := h ⟨j, waits_of_update runs w⟩
  have count := tally_update c.notified s i a
  have one := Bool.toNat_le (c.notified (s i))
  omega

/-- There is one more thing to be had, and one thread is notified of it. -/
lemma Served.notify (h : Served c n s) (ntf : NotifyOne c s s') : Served c (n + 1) s' := by
  cases ntf with
  | nobody none => exact .of_nobody none
  | @one i w =>
    have le := h ⟨i, w⟩
    have count := tally_update c.notified s i (c.wake (s i))
    rw [c.waits_not _ w, c.wake_notified _ w, Bool.toNat_false, Bool.toNat_true] at count
    intro _
    omega

/-- A thread is notified of something else. -/
lemma Served.other (h : Served d n s) (apart : Apart c d) (ntf : NotifyOne c s s') : Served d n s' := by
  cases ntf with
  | nobody _ => exact h
  | one w => exact h.go (apart.wake_waits _ w) (apart.notified _ w)

end Monitor
