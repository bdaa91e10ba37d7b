import PDS.Lib.Monitor
import PDS.Lib.Ring
import PDS.Kern.Synch

/-!
# The blocking queue

Port of `Malnati/lab4/BlockingQueue.hpp`, for any number of threads.

The mutex makes each critical section one step (`prelevaSection`, `inserisciSection`), from the test of the loop to the
wait, the return or the exception. A thread is somewhere between two of them (`Local`); a thread that waits can wake up
without having been notified, and `preleva` reads `open` once before it takes the mutex. What the calls do is what the
steps of a run say (`Event`).
-/

namespace PDS.Cpp
open Monitor PDS.Kern

variable {ι α : Type}

/-- The members of the queue but for the mutex and the condition variables (C++ `BlockingQueue`). -/
structure BlockingQueue (α : Type) where
  queue : Nat → α
  /-- `in`, an unsigned number of 32 bits -/
  inn : Nat
  /-- `out`, an unsigned number of 32 bits -/
  out : Nat
  size : Int
  capacity : Int
  /-- `open` -/
  opened : Bool

namespace BlockingQueue

/-- The constructor throws `domain_error` unless there is a capacity; `slots` is what `new T[capacity]` holds. -/
def new (slots : Nat → α) (capacity : Int) : Option (BlockingQueue α) :=
  if capacity ≤ 0 then none else some ⟨slots, 0, 0, 0, capacity, true⟩

def vuoto (q : BlockingQueue α) : Bool := q.size == 0

def pieno (q : BlockingQueue α) : Bool := q.size == q.capacity

/-- `(i + 1) % capacity`, in unsigned arithmetic. -/
def succ (q : BlockingQueue α) (i : Nat) : Nat := (i + 1) % 2 ^ 32 % q.capacity.toNat

end BlockingQueue

/-- How a critical section ends: the thread waits, or it leaves the queue like this. -/
inductive Exit (α ρ : Type) where
  | wait
  | leave (q : BlockingQueue α) (result : ρ)

/-- The critical section of `preleva`, from the test of its loop; no value is `false`. -/
def prelevaSection (q : BlockingQueue α) : Exit α (Option α) :=
  if q.opened == true && q.vuoto then .wait
  else if q.opened == false then .leave q none
  else .leave { q with out := q.succ q.out, size := q.size - 1 } (some (q.queue q.out))

/-- The critical section of `inserisci`, from the test of its loop; `false` is the exception. -/
def inserisciSection (val : α) (q : BlockingQueue α) : Exit α Bool :=
  if q.opened == true && q.pieno then .wait
  else if q.opened == false then .leave q false
  else .leave { q with queue := Function.update q.queue q.inn val, inn := q.succ q.inn, size := q.size + 1 } true

/-- Where a thread is. -/
inductive Local (α : Type) where
  /-- in none of the methods -/
  | fuori
  /-- in `preleva`, before it has the mutex; it may have been notified -/
  | preleva (notified : Bool)
  /-- waits on `c_vuoto` -/
  | attendeVuoto
  /-- in `inserisci`, before it has the mutex; it may have been notified -/
  | inserisci (val : α) (notified : Bool)
  /-- waits on `c_pieno` -/
  | attendePieno (val : α)

namespace Local

/-- A thread that waits wants the mutex again. -/
def wake (notified : Bool) : Local α → Local α
  | attendeVuoto => preleva notified
  | attendePieno val => inserisci val notified
  | l => l

def suVuoto : Local α → Bool
  | attendeVuoto => true
  | _ => false

def suPieno : Local α → Bool
  | attendePieno _ => true
  | _ => false

def notificatoVuoto : Local α → Bool
  | preleva notified => notified
  | _ => false

def notificatoPieno : Local α → Bool
  | inserisci _ notified => notified
  | _ => false

end Local

/-- The condition variable of the consumers (C++ `c_vuoto`). -/
def cVuoto : Condition (Local α) where
  waits := Local.suVuoto
  notified := Local.notificatoVuoto
  wake := Local.wake true
  wake_notified := by rintro (_ | _ | _ | _ | _) w <;> first | rfl | cases w
  wake_runs := by rintro (_ | _ | _ | _ | _) _ <;> rfl
  waits_not := by rintro (_ | _ | _ | _ | _) w <;> first | rfl | cases w

/-- The condition variable of the producers (C++ `c_pieno`). -/
def cPieno : Condition (Local α) where
  waits := Local.suPieno
  notified := Local.notificatoPieno
  wake := Local.wake true
  wake_notified := by rintro (_ | _ | _ | _ | _) w <;> first | rfl | cases w
  wake_runs := by rintro (_ | _ | _ | _ | _) _ <;> rfl
  waits_not := by rintro (_ | _ | _ | _ | _) w <;> first | rfl | cases w

/-- What a step shows. -/
inductive Event (α : Type) where
  /-- a method is called, or a thread waits or wakes up -/
  | tace
  /-- `preleva` returns `true` -/
  | prelevato (res : α)
  /-- `preleva` returns `false` -/
  | nessuno
  /-- `inserisci` returns -/
  | inserito (val : α)
  /-- `inserisci` throws `logic_error` -/
  | codaChiusa
  /-- `conteggio` returns -/
  | contato (size : Int)
  /-- `chiudi` returns -/
  | chiuso

/-- The queue and its threads. -/
structure QueueState (ι α : Type) where
  q : BlockingQueue α
  thread : ι → Local α

variable [DecidableEq ι]

/-- The thread `i` goes on to `l`. -/
def QueueState.goto (s : QueueState ι α) (i : ι) (l : Local α) : QueueState ι α :=
  { s with thread := Function.update s.thread i l }

/-- One step of a thread. -/
inductive QueueStep : QueueState ι α → Event α → QueueState ι α → Prop where
  /-- `preleva` is called and reads `open` -/
  | chiamaPreleva {s i} : s.thread i = .fuori → s.q.opened = true → QueueStep s .tace (s.goto i (.preleva false))
  /-- `preleva` is called and reads that the queue is closed -/
  | prelevaSubito {s i} : s.thread i = .fuori → s.q.opened = false → QueueStep s .nessuno s
  /-- `preleva` waits on `c_vuoto` -/
  | prelevaAttende {s i b} : s.thread i = .preleva b → prelevaSection s.q = .wait →
    QueueStep s .tace (s.goto i .attendeVuoto)
  /-- `preleva` returns `false` -/
  | prelevaFalso {s i b q} : s.thread i = .preleva b → prelevaSection s.q = .leave q none →
    QueueStep s .nessuno { s.goto i .fuori with q := q }
  /-- `preleva` has a value and calls `c_pieno.notify_one` -/
  | prelevaVero {s i b q res thread} : s.thread i = .preleva b → prelevaSection s.q = .leave q (some res) →
    NotifyOne cPieno (s.goto i .fuori).thread thread → QueueStep s (.prelevato res) ⟨q, thread⟩
  /-- `inserisci` is called -/
  | chiamaInserisci {s i} (val) : s.thread i = .fuori → QueueStep s .tace (s.goto i (.inserisci val false))
  /-- `inserisci` waits on `c_pieno` -/
  | inserisciAttende {s i val b} : s.thread i = .inserisci val b → inserisciSection val s.q = .wait →
    QueueStep s .tace (s.goto i (.attendePieno val))
  /-- `inserisci` throws -/
  | inserisciLancia {s i val b q} : s.thread i = .inserisci val b → inserisciSection val s.q = .leave q false →
    QueueStep s .codaChiusa { s.goto i .fuori with q := q }
  /-- `inserisci` has inserted the value and calls `c_vuoto.notify_one` -/
  | inserisciVero {s i val b q thread} : s.thread i = .inserisci val b → inserisciSection val s.q = .leave q true →
    NotifyOne cVuoto (s.goto i .fuori).thread thread → QueueStep s (.inserito val) ⟨q, thread⟩
  /-- a thread that waits wakes up by itself -/
  | spurio {s i} : (s.thread i).suVuoto = true ∨ (s.thread i).suPieno = true →
    QueueStep s .tace (s.goto i ((s.thread i).wake false))
  /-- `conteggio` -/
  | conteggio {s i} : s.thread i = .fuori → QueueStep s (.contato s.q.size) s
  /-- `chiudi` -/
  | chiudi {s i} : s.thread i = .fuori →
    QueueStep s .chiuso ⟨{ s.q with opened := false }, notifyAll cPieno (notifyAll cVuoto s.thread)⟩

/-- The steps from one state to another, and what they show. -/
inductive QueueRun (s : QueueState ι α) : List (Event α) → QueueState ι α → Prop where
  | nil : QueueRun s [] s
  | snoc {es e t u} : QueueRun s es t → QueueStep t e u → QueueRun s (es ++ [e]) u

/-- The values that the calls of `preleva` have returned. -/
def prelevati (es : List (Event α)) : List α :=
  es.filterMap fun
    | .prelevato res => some res
    | _ => none

/-- The values that the calls of `inserisci` have inserted. -/
def inseriti (es : List (Event α)) : List α :=
  es.filterMap fun
    | .inserito val => some val
    | _ => none

/-- What has been taken in two parts of a run. -/
lemma prelevati_append (es fs : List (Event α)) : prelevati (es ++ fs) = prelevati es ++ prelevati fs :=
  List.filterMap_append ..

/-- What has been put in two parts of a run. -/
lemma inseriti_append (es fs : List (Event α)) : inseriti (es ++ fs) = inseriti es ++ inseriti fs :=
  List.filterMap_append ..

section Section

variable {q q' : BlockingQueue α} {val res : α}

/-- `preleva` waits while the queue is open and empty. -/
lemma prelevaSection_wait (h : prelevaSection q = .wait) : q.opened = true ∧ q.size = 0 := by
  rw [prelevaSection] at h
  split at h
  · rename_i both
    obtain ⟨opened, empty⟩ := Bool.and_eq_true_iff.1 both
    exact ⟨eq_of_beq opened, eq_of_beq empty⟩
  · split at h <;> cases h

/-- `preleva` returns nothing when the queue is closed. -/
lemma prelevaSection_none (h : prelevaSection q = .leave q' none) : q.opened = false ∧ q' = q := by
  rw [prelevaSection] at h
  split at h
  · cases h
  · split at h
    · rename_i closed
      cases h
      exact ⟨eq_of_beq closed, rfl⟩
    · cases h

/-- `preleva` takes the first element. -/
lemma prelevaSection_some (h : prelevaSection q = .leave q' (some res)) :
    q.opened = true ∧ q.size ≠ 0 ∧ res = q.queue q.out ∧ q' = { q with out := q.succ q.out, size := q.size - 1 } := by
  rw [prelevaSection] at h
  split at h
  · cases h
  · rename_i run
    split at h
    · cases h
    · rename_i opened
      cases h
      have opened : q.opened = true := by simpa using opened
      refine ⟨opened, ?_, rfl, rfl⟩
      intro zero
      apply run
      rw [opened, BlockingQueue.vuoto, zero]
      rfl

/-- `inserisci` waits while the queue is open and full. -/
lemma inserisciSection_wait (h : inserisciSection val q = .wait) : q.opened = true ∧ q.size = q.capacity := by
  rw [inserisciSection] at h
  split at h
  · rename_i both
    obtain ⟨opened, full⟩ := Bool.and_eq_true_iff.1 both
    exact ⟨eq_of_beq opened, eq_of_beq full⟩
  · split at h <;> cases h

/-- `inserisci` gives up when the queue is closed. -/
lemma inserisciSection_false (h : inserisciSection val q = .leave q' false) : q.opened = false ∧ q' = q := by
  rw [inserisciSection] at h
  split at h
  · cases h
  · split at h
    · rename_i closed
      cases h
      exact ⟨eq_of_beq closed, rfl⟩
    · cases h

/-- `inserisci` puts an element behind the others. -/
lemma inserisciSection_true (h : inserisciSection val q = .leave q' true) :
    q.opened = true ∧ q.size ≠ q.capacity ∧
      q' = { q with queue := Function.update q.queue q.inn val, inn := q.succ q.inn, size := q.size + 1 } := by
  rw [inserisciSection] at h
  split at h
  · cases h
  · rename_i run
    split at h
    · cases h
    · rename_i opened
      cases h
      have opened : q.opened = true := by simpa using opened
      refine ⟨opened, ?_, rfl⟩
      intro full
      apply run
      rw [opened, BlockingQueue.pieno, full]
      exact beq_self_eq_true _

end Section

/-- The queue holds what has been inserted and not been taken out, in that order. -/
structure BlockingQueue.Ordered (capacity : Int) (q : BlockingQueue α) (ins taken : List α) : Prop where
  pos : 0 < capacity
  int : capacity ≤ intMax
  cap : q.capacity = capacity
  size : q.size = ins.length - taken.length
  le : taken.length ≤ ins.length
  full : ins.length ≤ taken.length + capacity.toNat
  inn : q.inn = ins.length % capacity.toNat
  out : q.out = taken.length % capacity.toNat
  fifo : taken <+: ins
  slots : Ring.Window capacity.toNat q.queue ins taken.length ins.length

namespace BlockingQueue.Ordered

variable {capacity : Int} {q q' : BlockingQueue α} {ins taken : List α} {val res : α}

/-- The unsigned sum does not wrap around. -/
lemma succ (h : q.Ordered capacity ins taken) (n : Nat) :
    q.succ (n % capacity.toNat) = (n + 1) % capacity.toNat := by
  have lt := Nat.mod_lt n (Int.lt_toNat.2 h.pos)
  have int := h.int
  rw [intMax] at int
  have small : n % capacity.toNat + 1 < 2 ^ 32 := by omega
  rw [BlockingQueue.succ, h.cap, Nat.mod_eq_of_lt small, Ring.next]

/-- A new queue is empty. -/
lemma start {slots : Nat → α} (new : BlockingQueue.new slots capacity = some q) (int : capacity ≤ intMax) :
    q.Ordered capacity [] [] := by
  rw [BlockingQueue.new] at new
  split at new
  · cases new
  · rename_i pos
    cases new
    have pos := not_le.1 pos
    exact ⟨pos, int, rfl, rfl, le_refl _, Nat.zero_le _, (Nat.zero_mod _).symm, (Nat.zero_mod _).symm,
      List.prefix_refl _, .empty⟩

/-- Taking an element keeps the order. -/
lemma take (h : q.Ordered capacity ins taken) (sec : prelevaSection q = .leave q' (some res)) :
    q'.Ordered capacity ins (taken ++ [res]) := by
  obtain ⟨_, size, rfl, rfl⟩ := prelevaSection_some sec
  have lt : taken.length < ins.length := by
    have := h.size
    have := h.le
    omega
  have head := h.slots taken.length le_rfl lt
  rw [← h.out] at head
  have length : (taken ++ [q.queue q.out]).length = taken.length + 1 := List.length_append
  refine ⟨h.pos, h.int, h.cap, ?_, ?_, ?_, h.inn, ?_, ?_, ?_⟩
  · rw [length, h.size]
    push_cast
    ring
  · rwa [length]
  · rw [length]
    exact h.full.trans (by omega)
  · rw [length, ← h.succ, ← h.out]
  · obtain ⟨in_range, e⟩ := List.getElem?_eq_some_iff.1 head
    rw [← e]
    exact List.concat_get_prefix h.fifo in_range
  · rw [length]
    exact h.slots.pop

/-- Putting an element keeps the order. -/
lemma put (h : q.Ordered capacity ins taken) (sec : inserisciSection val q = .leave q' true) :
    q'.Ordered capacity (ins ++ [val]) taken := by
  obtain ⟨_, size, rfl⟩ := inserisciSection_true sec
  have pos := h.pos
  have lt : ins.length < taken.length + capacity.toNat := by
    have := h.size
    have := h.cap
    have := h.full
    omega
  have length : (ins ++ [val]).length = ins.length + 1 := List.length_append
  refine ⟨h.pos, h.int, h.cap, ?_, ?_, ?_, ?_, h.out, ?_, ?_⟩
  · rw [length, h.size]
    push_cast
    ring
  · exact h.le.trans (length ▸ Nat.le_succ _)
  · rwa [length]
  · rw [length, ← h.succ, ← h.inn]
  · exact h.fifo.trans (List.prefix_append ..)
  · rw [length, h.inn]
    apply (h.slots.update lt).append.push
    rw [List.getElem?_concat_length, Function.update_self]

end BlockingQueue.Ordered

/-- Nobody waits for both conditions. -/
lemma apart_vuoto_pieno : Apart (α := Local α) cVuoto cPieno where
  waits a w := by cases a <;> first | rfl | cases w
  wake_waits a _ := by cases a <;> rfl
  notified a w := by cases a <;> first | rfl | cases w

/-- Nor the other way round. -/
lemma apart_pieno_vuoto : Apart (α := Local α) cPieno cVuoto where
  waits a w := by cases a <;> first | rfl | cases w
  wake_waits a _ := by cases a <;> rfl
  notified a w := by cases a <;> first | rfl | cases w

namespace QueueState

variable [Fintype ι] {s s' : QueueState ι α} {i : ι} {l : Local α} {capacity : Int}

omit [DecidableEq ι] in
/-- While the queue is open, whoever waits waits for what is not there but for the threads that have been notified;
when it is closed, nobody waits. -/
structure Awake (capacity : Int) (s : QueueState ι α) : Prop where
  vuoto : s.q.opened = true → Served cVuoto s.q.size s.thread
  pieno : s.q.opened = true → Served cPieno (capacity - s.q.size) s.thread
  chiusa : s.q.opened = false → cVuoto.Nobody s.thread ∧ cPieno.Nobody s.thread

namespace Awake

omit [DecidableEq ι] in
/-- At the start everybody is outside. -/
lemma start {q : BlockingQueue α} (opened : q.opened = true) : Awake capacity ⟨q, fun _ : ι => .fuori⟩ where
  vuoto _ := .of_nobody fun _ => rfl
  pieno _ := .of_nobody fun _ => rfl
  chiusa closed := absurd (closed.symm.trans opened) nofun

/-- A thread that has not been notified goes on. -/
lemma go (h : s.Awake capacity) (v : l.suVuoto = false) (p : l.suPieno = false)
    (nv : (s.thread i).notificatoVuoto = false) (np : (s.thread i).notificatoPieno = false) :
    (s.goto i l).Awake capacity where
  vuoto opened := (h.vuoto opened).go v nv
  pieno opened := (h.pieno opened).go p np
  chiusa closed := ⟨(h.chiusa closed).1.update v, (h.chiusa closed).2.update p⟩

/-- A thread leaves a queue that is closed. -/
lemma leave (h : s.Awake capacity) (closed : s.q.opened = false) : (s.goto i .fuori).Awake capacity where
  vuoto opened := absurd (closed.symm.trans opened) nofun
  pieno opened := absurd (closed.symm.trans opened) nofun
  chiusa _ := ⟨(h.chiusa closed).1.update rfl, (h.chiusa closed).2.update rfl⟩

/-- An element is taken, and those who wait for room are woken. -/
lemma prelevaVero {q : BlockingQueue α} {b : Bool} {res : α} {thread : ι → Local α} (h : s.Awake capacity)
    (at_ : s.thread i = .preleva b) (sec : prelevaSection s.q = .leave q (some res))
    (ntf : NotifyOne cPieno (s.goto i .fuori).thread thread) : Awake capacity ⟨q, thread⟩ := by
  obtain ⟨opened, _, _, rfl⟩ := prelevaSection_some sec
  refine ⟨fun _ => ?_, fun _ => ?_, fun closed => absurd (closed.symm.trans opened) nofun⟩
  · have taken : Served cVuoto (s.q.size - 1) (s.goto i .fuori).thread := (h.vuoto opened).take rfl
    exact taken.other apart_pieno_vuoto ntf
  · have old : (s.thread i).notificatoPieno = false := by rw [at_]; rfl
    have gone : Served cPieno (capacity - s.q.size) (s.goto i .fuori).thread := (h.pieno opened).go rfl old
    have room : capacity - (s.q.size - 1) = capacity - s.q.size + 1 := by ring
    rw [room]
    exact gone.notify ntf

/-- An element is put, and those who wait for elements are woken. -/
lemma inserisciVero {q : BlockingQueue α} {b : Bool} {val : α} {thread : ι → Local α} (h : s.Awake capacity)
    (at_ : s.thread i = .inserisci val b) (sec : inserisciSection val s.q = .leave q true)
    (ntf : NotifyOne cVuoto (s.goto i .fuori).thread thread) : Awake capacity ⟨q, thread⟩ := by
  obtain ⟨opened, _, rfl⟩ := inserisciSection_true sec
  refine ⟨fun _ => ?_, fun _ => ?_, fun closed => absurd (closed.symm.trans opened) nofun⟩
  · have old : (s.thread i).notificatoVuoto = false := by rw [at_]; rfl
    have gone : Served cVuoto s.q.size (s.goto i .fuori).thread := (h.vuoto opened).go rfl old
    exact gone.notify ntf
  · have taken : Served cPieno (capacity - s.q.size - 1) (s.goto i .fuori).thread := (h.pieno opened).take rfl
    have room : capacity - (s.q.size + 1) = capacity - s.q.size - 1 := by ring
    rw [room]
    exact taken.other apart_vuoto_pieno ntf

/-- A thread waits for elements where there are none. -/
lemma prelevaAttende {b : Bool} (h : s.Awake capacity) (at_ : s.thread i = .preleva b)
    (sec : prelevaSection s.q = .wait) : (s.goto i .attendeVuoto).Awake capacity := by
  obtain ⟨opened, zero⟩ := prelevaSection_wait sec
  refine ⟨fun _ => .of_le zero.le, fun opened => (h.pieno opened).go rfl ?_, ?_⟩
  · rw [at_]
    rfl
  · exact fun closed => absurd (closed.symm.trans opened) nofun

/-- A thread waits for room where there is none. -/
lemma inserisciAttende {b : Bool} {val : α} (h : s.Awake capacity) (cap : s.q.capacity = capacity)
    (at_ : s.thread i = .inserisci val b) (sec : inserisciSection val s.q = .wait) :
    (s.goto i (.attendePieno val)).Awake capacity := by
  obtain ⟨opened, full⟩ := inserisciSection_wait sec
  refine ⟨fun opened => (h.vuoto opened).go rfl ?_, fun _ => .of_le ?_, ?_⟩
  · rw [at_]
    rfl
  · show capacity - s.q.size ≤ 0
    rw [full, cap, sub_self]
  · exact fun closed => absurd (closed.symm.trans opened) nofun

/-- A thread wakes without reason, and looks again. -/
lemma spurio (h : s.Awake capacity) (waits : (s.thread i).suVuoto = true ∨ (s.thread i).suPieno = true) :
    (s.goto i ((s.thread i).wake false)).Awake capacity := by
  apply h.go
  all_goals
    cases e : s.thread i with
    | attendeVuoto => rfl
    | attendePieno val => rfl
    | _ =>
      rw [e] at waits
      cases waits <;> contradiction

omit [DecidableEq ι] in
/-- The queue is closed, and everybody is woken. -/
lemma chiudi : Awake capacity ⟨{ s.q with opened := false }, notifyAll cPieno (notifyAll cVuoto s.thread)⟩ where
  vuoto := nofun
  pieno := nofun
  chiusa _ := ⟨nobody_notifyAll.notifyAll apart_pieno_vuoto, nobody_notifyAll⟩

/-- Every step keeps what is said about the threads that wait. -/
lemma step {e : Event α} (h : s.Awake capacity) (cap : s.q.capacity = capacity) (st : QueueStep s e s') :
    s'.Awake capacity := by
  cases st with
  | chiamaPreleva at_ _ => exact h.go rfl rfl (by rw [at_]; rfl) (by rw [at_]; rfl)
  | prelevaSubito _ _ => exact h
  | prelevaAttende at_ sec => exact h.prelevaAttende at_ sec
  | prelevaFalso _ sec =>
    obtain ⟨closed, rfl⟩ := prelevaSection_none sec
    exact h.leave closed
  | prelevaVero at_ sec ntf => exact h.prelevaVero at_ sec ntf
  | chiamaInserisci _ at_ => exact h.go rfl rfl (by rw [at_]; rfl) (by rw [at_]; rfl)
  | inserisciAttende at_ sec => exact h.inserisciAttende cap at_ sec
  | inserisciLancia _ sec =>
    obtain ⟨closed, rfl⟩ := inserisciSection_false sec
    exact h.leave closed
  | inserisciVero at_ sec ntf => exact h.inserisciVero at_ sec ntf
  | spurio waits => exact h.spurio waits
  | conteggio _ => exact h
  | chiudi _ => exact chiudi

end Awake

end QueueState

section Run

variable {s t : QueueState ι α} {e : Event α} {es : List (Event α)} {capacity : Int}

/-- What a step shows is what it does to the ring. -/
lemma QueueStep.ordered (st : QueueStep s e t) (h : s.q.Ordered capacity (inseriti es) (prelevati es)) :
    t.q.Ordered capacity (inseriti (es ++ [e])) (prelevati (es ++ [e])) := by
  rw [inseriti_append, prelevati_append]
  cases st with
  | prelevaVero _ sec _ =>
    rw [show inseriti [Event.prelevato _] = [] from rfl, List.append_nil]
    exact h.take sec
  | inserisciVero _ sec _ =>
    rw [show prelevati [Event.inserito _] = [] from rfl, List.append_nil]
    exact h.put sec
  | prelevaFalso _ sec =>
    obtain ⟨_, rfl⟩ := prelevaSection_none sec
    simpa [inseriti, prelevati] using h
  | inserisciLancia _ sec =>
    obtain ⟨_, rfl⟩ := inserisciSection_false sec
    simpa [inseriti, prelevati] using h
  | chiudi _ =>
    have closed : BlockingQueue.Ordered capacity { s.q with opened := false } (inseriti es) (prelevati es) :=
      ⟨h.pos, h.int, h.cap, h.size, h.le, h.full, h.inn, h.out, h.fifo, h.slots⟩
    simpa [inseriti, prelevati] using closed
  | _ => simpa [inseriti, prelevati, QueueState.goto] using h

/-- A queue that is closed stays so, and nothing goes in or out. -/
lemma QueueStep.closed (st : QueueStep s e t) (h : s.q.opened = false) :
    t.q.opened = false ∧ inseriti [e] = [] ∧ prelevati [e] = [] := by
  cases st with
  | prelevaVero _ sec _ =>
    have opened := (prelevaSection_some sec).1
    rw [h] at opened
    cases opened
  | inserisciVero _ sec _ =>
    have opened := (inserisciSection_true sec).1
    rw [h] at opened
    cases opened
  | prelevaFalso _ sec =>
    obtain ⟨closed, rfl⟩ := prelevaSection_none sec
    exact ⟨closed, rfl, rfl⟩
  | inserisciLancia _ sec =>
    obtain ⟨closed, rfl⟩ := inserisciSection_false sec
    exact ⟨closed, rfl, rfl⟩
  | chiudi _ => exact ⟨rfl, rfl, rfl⟩
  | _ => exact ⟨h, rfl, rfl⟩

/-- The queue is closed after `chiudi`. -/
lemma QueueStep.closes (st : QueueStep s .chiuso t) : t.q.opened = false := by
  cases st with
  | chiudi _ => rfl

/-- And stays so, with nothing put or taken. -/
lemma QueueRun.closed (run : QueueRun s es t) (h : s.q.opened = false) :
    t.q.opened = false ∧ inseriti es = [] ∧ prelevati es = [] := by
  induction run with
  | nil => exact ⟨h, rfl, rfl⟩
  | snoc _ st ih =>
    obtain ⟨closed, ins, taken⟩ := ih
    obtain ⟨closed', ins', taken'⟩ := st.closed closed
    rw [inseriti_append, prelevati_append, ins, taken, ins', taken']
    exact ⟨closed', rfl, rfl⟩

/-- After `chiudi` the queue is closed. -/
lemma QueueRun.closes (run : QueueRun s es t) (h : .chiuso ∈ es) : t.q.opened = false := by
  induction run with
  | nil => cases h
  | snoc _ st ih =>
    cases List.mem_append.1 h with
    | inl before => exact (st.closed (ih before)).1
    | inr now =>
      rw [← List.mem_singleton.1 now] at st
      exact st.closes

/-- The queue of a run holds what has been inserted and not been taken out, and nobody waits in vain. -/
lemma QueueRun.inv [Fintype ι] (run : QueueRun s es t) (ordered : s.q.Ordered capacity [] [])
    (awake : s.Awake capacity) : t.q.Ordered capacity (inseriti es) (prelevati es) ∧ t.Awake capacity := by
  induction run with
  | nil => exact ⟨ordered, awake⟩
  | snoc _ st ih => exact ⟨st.ordered ih.1, ih.2.step ih.1.cap st⟩

end Run

open Family in
/-- A queue of any capacity, in any run of any number of threads: it holds at most as many values as it has slots, and
the ring is in step with their number; what has been taken out is a prefix of what has been inserted; while it is open, a
thread waits only when all that it could have is about to go to threads that have been notified; and after `chiudi`
nobody waits and nothing goes in or out. -/
theorem blockingQueue_correct [Fintype ι] (slots : Nat → α) {capacity : Int} (pos : 1 ≤ capacity)
    (int : capacity ≤ intMax) :
    ∃ q, BlockingQueue.new slots capacity = some q ∧
      ∀ es (s : QueueState ι α), QueueRun ⟨q, fun _ => .fuori⟩ es s →
        (0 ≤ s.q.size ∧ s.q.size ≤ capacity ∧ (s.q.inn : Int) = (s.q.out + s.q.size) % capacity) ∧
        prelevati es <+: inseriti es ∧
        (s.q.opened = true →
          ((∃ i, s.thread i = .attendeVuoto) → s.q.size ≤ tally Local.notificatoVuoto s.thread) ∧
          ((∃ i val, s.thread i = .attendePieno val) →
            capacity - s.q.size ≤ tally Local.notificatoPieno s.thread)) ∧
        (.chiuso ∈ es →
          (∀ i, (s.thread i).suVuoto = false ∧ (s.thread i).suPieno = false) ∧
          ∀ es' s', QueueRun s es' s' → inseriti es' = [] ∧ prelevati es' = []) := by
  have new : BlockingQueue.new slots capacity = some ⟨slots, 0, 0, 0, capacity, true⟩ := if_neg (by omega)
  refine ⟨_, new, fun es s run => ?_⟩
  obtain ⟨ordered, awake⟩ := run.inv (.start new int) (.start rfl)
  refine ⟨⟨?_, ?_, ?_⟩, ordered.fifo, fun opened => ⟨?_, ?_⟩, fun chiuso => ⟨fun i => ?_, fun es' s' later => ?_⟩⟩
  · have := ordered.size
    have := ordered.le
    omega
  · have := ordered.size
    have := ordered.full
    omega
  · have inserted : ((inseriti es).length : Int) = (prelevati es).length + s.q.size := by
      rw [ordered.size]
      ring
    rw [ordered.inn, ordered.out, Int.natCast_mod, Int.natCast_mod, Int.toNat_of_nonneg (by omega), inserted,
      Int.emod_add_emod]
  · rintro ⟨i, at_⟩
    exact awake.vuoto opened ⟨i, by rw [at_]; rfl⟩
  · rintro ⟨i, val, at_⟩
    exact awake.pieno opened ⟨i, by rw [at_]; rfl⟩
  · have none := awake.chiusa (run.closes chiuso)
    exact ⟨none.1 i, none.2 i⟩
  · exact (later.closed (run.closes chiuso)).2

/-- A consumer waits, is notified by a producer and takes its value. -/
theorem blockingQueue_correct_one : ∃ es, ∃ s : QueueState (Fin 2) Nat,
    QueueRun ⟨⟨fun _ => 0, 0, 0, 0, 1, true⟩, fun _ => .fuori⟩ es s ∧ inseriti es = [7] ∧ prelevati es = [7] ∧
      0 ≤ s.q.size ∧ s.q.size ≤ 1 := by
  have called := QueueRun.nil.snoc (QueueStep.chiamaPreleva
    (s := (⟨⟨fun _ => 0, 0, 0, 0, 1, true⟩, fun _ => .fuori⟩ : QueueState (Fin 2) Nat)) (i := 0) rfl rfl)
  have waits := called.snoc (QueueStep.prelevaAttende (i := 0) (b := false) rfl rfl)
  have enters := waits.snoc (QueueStep.chiamaInserisci (i := 1) 7 rfl)
  have wakes := enters.snoc (QueueStep.inserisciVero (i := 1) rfl rfl (NotifyOne.one (i := 0) rfl))
  have run := wakes.snoc (QueueStep.prelevaVero (i := 0) rfl rfl (NotifyOne.nobody fun i => by fin_cases i <;> rfl))
  have small : (1 : Int) ≤ intMax := by decide
  obtain ⟨q, new, correct⟩ := blockingQueue_correct (ι := Fin 2) (fun _ => 0) le_rfl small
  cases new
  have bounds := (correct _ _ run).1
  exact ⟨_, _, run, rfl, rfl, bounds.1, bounds.2.1⟩

end PDS.Cpp
