import PDS.Kern.Machine
import PDS.Lib.Family

/-!
# Thread migration

Port of `thread_consider_migration` in `kern/thread/thread.c`, which moves threads from the run queue of the
current CPU to those of other CPUs. A thread list (`kern/thread/threadlist.c`) is a `List`; a thread has one
`t_listnode`, so it is on at most one list.

The function drops every lock that it takes before it takes the next one. It is therefore modelled as a
sequence of steps (`Migration.step`), one for each critical section, and other CPUs act between the steps: they
enqueue threads anywhere, dequeue from their own queues and run migrations of their own (`MigStep`).
The interrupts sent to idle CPUs are left out, and the counts are natural numbers.
-/

namespace PDS.Kern

/-- A thread (C `struct thread *`). -/
abbrev Tid := Nat

/-- The run queues of `n` CPUs, and the CPU of each thread (C `c_runqueue` and `t_cpu`). -/
structure Queues (n : Nat) where
  runqueue : Fin n → List Tid
  tcpu : Tid → Fin n

variable {n : Nat}

/-- The queue of one CPU is replaced. -/
def Queues.set (q : Queues n) (c : Fin n) (l : List Tid) : Queues n :=
  { q with runqueue := Function.update q.runqueue c l }

/-- C `threadlist_remhead`; there is no thread if the list is empty. -/
def remhead : List Tid → Option (Tid × List Tid)
  | [] => none
  | t :: l => some (t, l)

/-- C `threadlist_remtail`. -/
def remtail (l : List Tid) : Option (Tid × List Tid) :=
  l.getLast?.map (fun t => (t, l.dropLast))

/-- Where a CPU is in `thread_consider_migration`. -/
inductive MigPc where
  /-- before the lock of the `i`th queue in the first loop -/
  | count (i : Nat)
  /-- before the lock of the own queue, from which threads are taken -/
  | take
  /-- before the lock of the `i`th queue in the loop that moves the threads -/
  | send (i : Nat)
  /-- before what is left is put back -/
  | leftover
  | finished
deriving DecidableEq, Repr

/-- The local variables of `thread_consider_migration`. -/
structure Migration where
  pc : MigPc
  myCount : Nat
  totalCount : Nat
  oneShare : Nat
  toSend : Nat
  victims : List Tid
deriving DecidableEq, Repr

/-- The call begins. -/
def Migration.start : Migration := ⟨.count 0, 0, 0, 0, 0, []⟩

/-- The loop that moves `k` threads from the tail of the own queue to the head of `victims`. -/
def takeLoop : Nat → List Tid → List Tid → Except Halt (List Tid × List Tid)
  | 0, own, victims => .ok (own, victims)
  | k + 1, own, victims =>
    match remtail own with
    | none => .error fatalFault
    | some (t, own) => takeLoop k own (t :: victims)

/-- The loop that moves threads to the queue of the CPU `c`, with `toSend` threads still to send. The current
thread is shuffled to the end of `victims` instead. -/
def sendLoop (cur : Tid) (c : Fin n) (oneShare : Nat) :
    Nat → Queues n → List Tid → Except Halt (Nat × Queues n × List Tid)
  | 0, q, victims => .ok (0, q, victims)
  | toSend + 1, q, victims =>
    if (q.runqueue c).length < oneShare then
      match remhead victims with
      | none => .error fatalFault
      | some (t, victims) =>
        if t = cur then sendLoop cur c oneShare toSend q (victims ++ [t])
        else
          let q := { q with tcpu := Function.update q.tcpu t c }
          sendLoop cur c oneShare toSend (q.set c (q.runqueue c ++ [t])) victims
    else .ok (toSend + 1, q, victims)

/-- The loop that puts the leftovers back on the own queue. -/
def putBack (own : List Tid) : List Tid → List Tid × List Tid
  | [] => (own, [])
  | t :: victims => putBack (own ++ [t]) victims

/-- One critical section of `thread_consider_migration` on the CPU `me`, whose current thread is `cur`. -/
def Migration.step (me : Fin n) (cur : Tid) (q : Queues n) (m : Migration) :
    Except Halt (Queues n × Migration) :=
  match m.pc with
  | .count i =>
    if h : i < n then
      let count := (q.runqueue ⟨i, h⟩).length
      .ok (q, { m with
        pc := .count (i + 1)
        totalCount := m.totalCount + count
        myCount := if ⟨i, h⟩ = me then count else m.myCount })
    else
      let oneShare := (m.totalCount + n - 1) / n
      if m.myCount < oneShare then .ok (q, { m with pc := .finished, oneShare := oneShare })
      else .ok (q, { m with pc := .take, oneShare := oneShare, toSend := m.myCount - oneShare })
  | .take => do
    let (own, victims) ← takeLoop m.toSend (q.runqueue me) []
    .ok (q.set me own, { m with pc := .send 0, victims := victims })
  | .send i =>
    if h : i < n ∧ m.toSend > 0 then
      let c : Fin n := ⟨i, h.1⟩
      if c = me then .ok (q, { m with pc := .send (i + 1) })
      else do
        let (toSend, q, victims) ← sendLoop cur c m.oneShare m.toSend q m.victims
        .ok (q, { m with pc := .send (i + 1), toSend := toSend, victims := victims })
    else .ok (q, { m with pc := .leftover })
  | .leftover => do
    let (own, victims) := putBack (q.runqueue me) m.victims
    kassert (victims = []) "threadlist_isempty(&victims)"
    .ok (q.set me own, { m with pc := .finished, victims := victims })
  | .finished => .ok (q, m)

/-- Threads are appended to the queue of a CPU, which becomes theirs. -/
def Queues.move (q : Queues n) (c : Fin n) (ts : List Tid) : Queues n where
  runqueue := Function.update q.runqueue c (q.runqueue c ++ ts)
  tcpu t := if t ∈ ts then c else q.tcpu t

/-- The effect of a step on the queues and on `victims`. -/
inductive Moves (me : Fin n) (cur : Tid) : Queues n → List Tid → Queues n → List Tid → Prop where
  | stay {q vs} : Moves me cur q vs q vs
  | take {q own ts} : q.runqueue me = own ++ ts → Moves me cur q [] (q.set me own) ts
  | send {q c vs ts rest} :
    c ≠ me → (ts ++ rest).Perm vs → cur ∉ ts → Moves me cur q vs (q.move c ts) rest
  | back {q vs} : Moves me cur q vs (q.set me (q.runqueue me ++ vs)) []

/-- There are as many threads in `victims` as there are to send, but for the current thread, which is at the
end once it has been skipped. -/
def Sendable (cur : Tid) (victims : List Tid) (toSend : Nat) : Prop :=
  victims.Nodup ∧ (victims.length = toSend ∨ ∃ ts, victims = ts ++ [cur] ∧ ts.length = toSend)

/-- The local variables fit the own queue, which other CPUs only make longer. -/
def Migration.Fits (me : Fin n) (cur : Tid) (q : Queues n) (m : Migration) : Prop :=
  match m.pc with
  | .count i => m.victims = [] ∧ (me < i → m.myCount ≤ (q.runqueue me).length)
  | .take => m.victims = [] ∧ m.toSend ≤ (q.runqueue me).length
  | .send _ => Sendable cur m.victims m.toSend
  | .leftover => True
  | .finished => m.victims = []

/-- The last thread is removed. -/
lemma remtail_concat (l : List Tid) (t : Tid) : remtail (l ++ [t]) = some (t, l) := by
  simp [remtail]

/-- The threads at the end of the queue are taken, in their order. -/
lemma takeLoop_append {own ts vs : List Tid} :
    takeLoop ts.length (own ++ ts) vs = .ok (own, ts ++ vs) := by
  induction ts using List.reverseRecOn generalizing vs with
  | nil => simp [takeLoop]
  | append_singleton ts t ih =>
    rw [List.length_append, List.length_singleton, takeLoop, ← List.append_assoc, remtail_concat]
    simp only
    rw [ih, List.append_assoc, List.singleton_append]

/-- The threads are put behind the others. -/
lemma putBack_eq (own vs : List Tid) : putBack own vs = (own ++ vs, []) := by
  induction vs generalizing own with
  | nil => simp [putBack]
  | cons t vs ih => rw [putBack, ih, List.append_assoc, List.singleton_append]

namespace Sendable

variable {cur t : Tid} {vs : List Tid} {k : Nat}

/-- Something is to be sent. -/
lemma ne_nil (sd : Sendable cur vs (k + 1)) : vs ≠ [] := by
  rintro rfl
  obtain ⟨-, h | ⟨ts, h, -⟩⟩ := sd
  · cases h
  · exact absurd h.symm (List.append_ne_nil_of_right_ne_nil _ (List.cons_ne_nil _ _))

/-- The current thread is skipped once. -/
lemma skip (sd : Sendable cur (cur :: vs) (k + 1)) : Sendable cur (vs ++ [cur]) k := by
  obtain ⟨nd, h⟩ := sd
  refine ⟨(List.perm_append_singleton cur vs).nodup_iff.2 nd, .inr ⟨vs, rfl, ?_⟩⟩
  cases h with
  | inl len => exact Nat.succ.inj len
  | inr h =>
    obtain ⟨ts, e, len⟩ := h
    cases ts with
    | nil => cases len
    | cons t ts =>
      rw [List.cons_append, List.cons.injEq] at e
      obtain ⟨-, rfl⟩ := e
      exact absurd (List.mem_append_right ts (List.mem_singleton_self cur)) (List.nodup_cons.1 nd).1

/-- What is left to be sent. -/
lemma tail (sd : Sendable cur (t :: vs) (k + 1)) : Sendable cur vs k := by
  obtain ⟨nd, h⟩ := sd
  refine ⟨(List.nodup_cons.1 nd).2, ?_⟩
  cases h with
  | inl len => exact .inl (Nat.succ.inj len)
  | inr h =>
    obtain ⟨ts, e, len⟩ := h
    cases ts with
    | nil => cases len
    | cons t' ts =>
      rw [List.cons_append, List.cons.injEq] at e
      exact .inr ⟨ts, e.2, Nat.succ.inj len⟩

end Sendable

/-- Nothing is moved. -/
lemma Queues.move_nil (q : Queues n) (c : Fin n) : q.move c [] = q := by
  simp [Queues.move]

/-- Threads that are moved one after the other. -/
lemma Queues.move_cons (q : Queues n) (c : Fin n) (t : Tid) (ts : List Tid) :
    (Queues.set { q with tcpu := Function.update q.tcpu t c } c (q.runqueue c ++ [t])).move c ts =
      q.move c (t :: ts) := by
  have tcpu : ∀ x, (if x ∈ ts then c else Function.update q.tcpu t c x) =
      if x ∈ t :: ts then c else q.tcpu x := by
    intro x
    by_cases same : x = t
    · subst same
      simp
    · simp [same]
  simp only [Queues.move, Queues.set, Function.update_self, Function.update_idem, tcpu,
    List.append_assoc, List.singleton_append]

/-- The loop sends threads other than the current one, until there are none left to send or the queue has its
share. -/
lemma sendLoop_ok {cur : Tid} {c : Fin n} {oneShare k : Nat} {q : Queues n} {vs : List Tid}
    (sd : Sendable cur vs k) :
    ∃ k' ts rest, sendLoop cur c oneShare k q vs = .ok (k', q.move c ts, rest) ∧
      Sendable cur rest k' ∧ (ts ++ rest).Perm vs ∧ cur ∉ ts ∧ ts.length + k' ≤ k ∧
      (ts = [] ∨ (q.runqueue c).length + ts.length ≤ oneShare) ∧
      (k' = 0 ∨ oneShare ≤ (q.runqueue c).length + ts.length) := by
  induction k generalizing q vs with
  | zero =>
    exact ⟨0, [], vs, by rw [sendLoop, Queues.move_nil], sd, .refl _, List.not_mem_nil, le_rfl, .inl rfl, .inl rfl⟩
  | succ k ih =>
    rw [sendLoop]
    split
    next room =>
      cases vs with
      | nil => exact absurd rfl sd.ne_nil
      | cons t vs =>
        simp only [remhead]
        split
        next same =>
          subst same
          obtain ⟨k', ts, rest, e, sd', perm, skip, count, le, full⟩ := ih (q := q) sd.skip
          exact ⟨k', ts, rest, e, sd', perm.trans (List.perm_append_singleton t vs), skip, by omega, le, full⟩
        next ne =>
          obtain ⟨k', ts, rest, e, sd', perm, skip, count, le, full⟩ :=
            ih (q := Queues.set { q with tcpu := Function.update q.tcpu t c } c (q.runqueue c ++ [t])) sd.tail
          rw [Queues.move_cons] at e
          have length : ((Queues.set { q with tcpu := Function.update q.tcpu t c } c (q.runqueue c ++ [t])).runqueue
              c).length = (q.runqueue c).length + 1 := by
            change (Function.update q.runqueue c (q.runqueue c ++ [t]) c).length = _
            rw [Function.update_self, List.length_append, List.length_singleton]
          rw [length] at le full
          refine ⟨k', t :: ts, rest, e, sd', perm.cons t, ?_, ?_, .inr ?_, full.imp_right fun h => ?_⟩
          · simp only [List.mem_cons, not_or]
            exact ⟨fun h => ne h.symm, skip⟩
          · rw [List.length_cons]
            omega
          · obtain rfl | le := le
            · exact room
            · rw [List.length_cons]
              omega
          · rw [List.length_cons]
            omega
    next full =>
      exact ⟨k + 1, [], vs, by rw [Queues.move_nil], sd, .refl _, List.not_mem_nil, (Nat.zero_add _).le, .inl rfl,
        .inr (Nat.le_of_not_lt full)⟩

/-- A step finds the threads that it asks for, and its effect is one of the four moves. -/
lemma Migration.step_ok {me : Fin n} {cur : Tid} {q : Queues n} {m : Migration} (fits : m.Fits me cur q)
    (nd : (q.runqueue me).Nodup) :
    ∃ q' m', m.step me cur q = .ok (q', m') ∧ Moves me cur q m.victims q' m'.victims ∧
      m'.Fits me cur q' := by
  obtain ⟨pc, my, total, share, k, vs⟩ := m
  cases pc with
  | count i =>
    obtain ⟨none, count⟩ := fits
    by_cases h : i < n
    · refine ⟨q, _, dif_pos h, .stay, none, fun lt => ?_⟩
      by_cases self : ⟨i, h⟩ = me
      · rw [if_pos self, self]
      · rw [if_neg self]
        refine count (lt_of_le_of_ne (Nat.le_of_lt_succ lt) ?_)
        exact fun same => self (Fin.ext same.symm)
    · have le := count (by omega)
      by_cases short : my < (total + n - 1) / n
      · exact ⟨q, _, (dif_neg h).trans (if_pos short), .stay, none⟩
      · exact ⟨q, _, (dif_neg h).trans (if_neg short), .stay, none, (Nat.sub_le _ _).trans le⟩
  | take =>
    obtain ⟨rfl, le⟩ := fits
    dsimp only at le
    -- the own queue ends with the threads to send
    obtain ⟨own, ts, e, len⟩ : ∃ own ts, q.runqueue me = own ++ ts ∧ ts.length = k :=
      ⟨_, _, (List.take_append_drop ((q.runqueue me).length - k) _).symm,
        by rw [List.length_drop]; omega⟩
    have loop : takeLoop k (q.runqueue me) [] = .ok (own, ts) := by
      rw [e, ← len, takeLoop_append, List.append_nil]
    rw [e] at nd
    refine ⟨q.set me own, ⟨.send 0, my, total, share, k, ts⟩, ?_, .take e, nd.of_append_right, .inl len⟩
    rw [Migration.step, loop]
    rfl
  | send i =>
    by_cases h : i < n ∧ k > 0
    · by_cases self : ⟨i, h.1⟩ = me
      · exact ⟨q, _, (dif_pos h).trans (if_pos self), .stay, fits⟩
      · obtain ⟨k', ts, rest, e, sd, perm, skip, -⟩ := @sendLoop_ok n cur ⟨i, h.1⟩ share k q vs fits
        refine ⟨q.move ⟨i, h.1⟩ ts, ⟨.send (i + 1), my, total, share, k', rest⟩, ?_, .send self perm skip, sd⟩
        refine (dif_pos h).trans ((if_neg self).trans ?_)
        rw [e]
        rfl
    · exact ⟨q, _, dif_neg h, .stay, trivial⟩
  | leftover =>
    refine ⟨q.set me (q.runqueue me ++ vs), ⟨.finished, my, total, share, k, []⟩, ?_, .back, rfl⟩
    rw [Migration.step, putBack_eq]
    rfl
  | finished => exact ⟨q, _, rfl, .stay, fits⟩

/-- A call of `thread_consider_migration` with what the other CPUs have put on run queues and taken from them
in the meantime. -/
structure MigState (n : Nat) where
  queues : Queues n
  mig : Migration
  came : Multiset Tid
  left : Multiset Tid

/-- The call on the CPU `me` makes a step, or another CPU acts. A thread that is put on a queue is on no list. -/
inductive MigStep (me : Fin n) (cur : Tid) : MigState n → MigState n → Prop where
  | own {s q m} : s.mig.step me cur s.queues = .ok (q, m) →
    MigStep me cur s { s with queues := q, mig := m }
  | enqueue {s c t} : (∀ d, t ∉ s.queues.runqueue d) → t ∉ s.mig.victims →
    MigStep me cur s { s with queues := s.queues.move c [t], came := t ::ₘ s.came }
  | dequeue {s c t} : c ≠ me → t ∈ s.queues.runqueue c →
    MigStep me cur s { s with queues := s.queues.set c ((s.queues.runqueue c).erase t), left := t ::ₘ s.left }

/-- The threads on all run queues. -/
def Queues.threads (q : Queues n) : Multiset Tid := ∑ c, (q.runqueue c : Multiset Tid)

/-- No thread is on two run queues or twice on one, and every thread is on the queue of its CPU. -/
structure Queues.Ordered (q : Queues n) : Prop where
  nodup : q.threads.Nodup
  tcpu : ∀ {c t}, t ∈ q.runqueue c → q.tcpu t = c

/-- What a call guarantees in a state that it reaches: its next step finds the threads that it asks for, does
not put the current thread on the queue of another CPU and leaves every thread that it moves with the CPU
of its queue; no thread has been lost or duplicated; and `victims` is empty at the end. -/
structure MigState.Safe (me : Fin n) (cur : Tid) (q₀ : Queues n) (s : MigState n) : Prop where
  finds : ∃ q m, s.mig.step me cur s.queues = .ok (q, m)
  current : ∀ {q m}, s.mig.step me cur s.queues = .ok (q, m) →
    ∀ {c}, c ≠ me → cur ∈ q.runqueue c → cur ∈ s.queues.runqueue c
  tcpu : ∀ {q m}, s.mig.step me cur s.queues = .ok (q, m) →
    ∀ {c t}, t ∈ q.runqueue c → t ∉ s.queues.runqueue c → q.tcpu t = c
  conserved : s.queues.threads + s.mig.victims + s.left = q₀.threads + s.came
  emptied : s.mig.pc = .finished → s.mig.victims = []

/-- The invariant of a call. -/
structure MigState.Inv (me : Fin n) (cur : Tid) (q₀ : Queues n) (s : MigState n) : Prop where
  fits : s.mig.Fits me cur s.queues
  nodup : (s.queues.threads + s.mig.victims).Nodup
  tcpu : ∀ {c t}, t ∈ s.queues.runqueue c → s.queues.tcpu t = c
  home : ∀ {t}, t ∈ s.mig.victims → s.queues.tcpu t = me
  conserved : s.queues.threads + s.mig.victims + s.left = q₀.threads + s.came

/-- A thread in one of the queues. -/
lemma Queues.mem_threads {q : Queues n} {t : Tid} : t ∈ q.threads ↔ ∃ c, t ∈ q.runqueue c := by
  simp [Queues.threads, Multiset.mem_sum]

/-- The threads after one queue has been changed. -/
lemma Queues.threads_update (q : Queues n) (c : Fin n) (l : List Tid) (tcpu : Tid → Fin n) :
    Queues.threads ⟨Function.update q.runqueue c l, tcpu⟩ + q.runqueue c = q.threads + l := by
  have update := Function.comp_update (fun l : List Tid => (l : Multiset Tid)) q.runqueue c l
  have sum := Family.sum_update_add ((fun l : List Tid => (l : Multiset Tid)) ∘ q.runqueue) c l
  rw [← update] at sum
  exact sum

/-- The threads that are moved are added. -/
lemma Queues.threads_move (q : Queues n) (c : Fin n) (ts : List Tid) :
    (q.move c ts).threads = q.threads + ts := by
  have h := q.threads_update c (q.runqueue c ++ ts) (q.move c ts).tcpu
  rw [← Multiset.coe_add, add_left_comm, add_comm _ (q.runqueue c : Multiset Tid)] at h
  exact add_left_cancel h

/-- The threads that are taken away are missing. -/
lemma Queues.threads_set {q : Queues n} {c : Fin n} {l ts : List Tid} (e : q.runqueue c = l ++ ts) :
    (q.set c l).threads + ts = q.threads := by
  have h := q.threads_update c l q.tcpu
  rw [e, ← Multiset.coe_add, ← add_assoc, add_right_comm] at h
  exact add_right_cancel h

/-- Only the place of the threads changes. -/
lemma Moves.threads {me : Fin n} {cur : Tid} {q q' : Queues n} {vs vs' : List Tid}
    (mv : Moves me cur q vs q' vs') : q'.threads + vs' = q.threads + vs := by
  cases mv with
  | stay => rfl
  | take e => rw [Queues.threads_set e, Multiset.coe_nil, add_zero]
  | @send c _ ts _ _ perm _ =>
    rw [Queues.threads_move, add_assoc, Multiset.coe_add, Multiset.coe_eq_coe.2 perm]
  | back =>
    have h := q.threads_update me (q.runqueue me ++ vs) q.tcpu
    rw [← Multiset.coe_add, add_left_comm, add_comm _ (q.runqueue me : Multiset Tid)] at h
    rw [Multiset.coe_nil, add_zero]
    exact add_left_cancel h

/-- The queues after one has been set. -/
lemma Queues.mem_set {q : Queues n} {c d : Fin n} {l : List Tid} {t : Tid} :
    t ∈ (q.set c l).runqueue d ↔ if d = c then t ∈ l else t ∈ q.runqueue d := by
  by_cases h : d = c
  · subst h
    simp [Queues.set]
  · simp [Queues.set, h]

/-- The queues after threads have been moved to one. -/
lemma Queues.mem_move {q : Queues n} {c d : Fin n} {ts : List Tid} {t : Tid} :
    t ∈ (q.move c ts).runqueue d ↔ t ∈ q.runqueue d ∨ d = c ∧ t ∈ ts := by
  by_cases h : d = c
  · subst h
    simp [Queues.move]
  · simp [Queues.move, h]

namespace Moves

variable {me : Fin n} {cur : Tid} {q q' : Queues n} {vs vs' : List Tid}

/-- The current thread does not leave its CPU. -/
lemma current (mv : Moves me cur q vs q' vs') {c : Fin n} (ne : c ≠ me) (h : cur ∈ q'.runqueue c) :
    cur ∈ q.runqueue c := by
  cases mv with
  | stay => exact h
  | take e => rwa [Queues.mem_set, if_neg ne] at h
  | send _ _ skip =>
    obtain h | ⟨-, h⟩ := Queues.mem_move.1 h
    · exact h
    · exact absurd h skip
  | back => rwa [Queues.mem_set, if_neg ne] at h

/-- Every thread stays with the CPU of its queue, and `victims` with the own CPU. -/
lemma tcpu (mv : Moves me cur q vs q' vs') (nd : vs.Nodup) (disj : ∀ {c t}, t ∈ q.runqueue c → t ∉ vs)
    (queue : ∀ {c t}, t ∈ q.runqueue c → q.tcpu t = c) (home : ∀ {t}, t ∈ vs → q.tcpu t = me) :
    (∀ {c t}, t ∈ q'.runqueue c → q'.tcpu t = c) ∧ ∀ {t}, t ∈ vs' → q'.tcpu t = me := by
  cases mv with
  | stay => exact ⟨queue, home⟩
  | take e =>
    refine ⟨fun {c t} h => ?_, fun {t} h => queue (e ▸ List.mem_append_right _ h)⟩
    rw [Queues.mem_set] at h
    split_ifs at h with own
    · rw [own]
      exact queue (e ▸ List.mem_append_left _ h)
    · exact queue h
  | @send c _ ts _ ne perm skip =>
    have sub : ∀ {t}, t ∈ ts → t ∈ vs := fun h => perm.subset (List.mem_append_left _ h)
    refine ⟨fun {d t} h => ?_, fun {t} h => ?_⟩
    · obtain h | ⟨rfl, mem⟩ := Queues.mem_move.1 h
      · have out : t ∉ ts := fun h' => disj h (sub h')
        exact (if_neg out).trans (queue h)
      · exact if_pos mem
    · have nd' := List.nodup_append.1 (perm.nodup_iff.2 nd)
      have out : t ∉ ts := fun h' => nd'.2.2 t h' t h rfl
      exact (if_neg out).trans (home (perm.subset (List.mem_append_right _ h)))
  | back =>
    refine ⟨fun {c t} h => ?_, fun {t} h => nomatch h⟩
    rw [Queues.mem_set] at h
    split_ifs at h with own
    · rw [own]
      cases List.mem_append.1 h with
      | inl h => exact queue h
      | inr h => exact home h
    · exact queue h

/-- The CPU of a thread changes only if it is one of the `victims`, and not the current thread. -/
lemma tcpu_keep (mv : Moves me cur q vs q' vs') {t : Tid} (h : t ∉ vs ∨ t = cur) : q'.tcpu t = q.tcpu t := by
  cases mv with
  | stay => rfl
  | take e => rfl
  | send _ perm skip =>
    refine if_neg (fun mem => ?_)
    cases h with
    | inl out => exact out (perm.subset (List.mem_append_left _ mem))
    | inr e => exact skip (e ▸ mem)
  | back => rfl

/-- The queues of other CPUs do not get shorter. -/
lemma length_le (mv : Moves me cur q vs q' vs') {c : Fin n} (ne : c ≠ me) :
    (q.runqueue c).length ≤ (q'.runqueue c).length := by
  cases mv with
  | stay => exact le_rfl
  | take e => simp [Queues.set, ne]
  | @send d _ ts _ _ _ _ =>
    simp only [Queues.move]
    by_cases same : c = d
    · subst same
      simp
    · rw [Function.update_of_ne same]
  | back => simp [Queues.set, ne]

end Moves

namespace MigState

variable {me : Fin n} {cur : Tid} {q₀ : Queues n} {s s' : MigState n}

/-- Nothing has been moved at the start. -/
lemma Inv.start (ord : q₀.Ordered) : Inv me cur q₀ ⟨q₀, .start, 0, 0⟩ where
  fits := ⟨rfl, fun h => absurd h (Nat.not_lt_zero _)⟩
  nodup := by simpa [Migration.start] using ord.nodup
  tcpu := ord.tcpu
  home h := nomatch h
  conserved := by simp [Migration.start]

/-- A thread is in the queue once. -/
lemma Inv.queue_nodup (inv : Inv me cur q₀ s) : (s.queues.runqueue me).Nodup := by
  have nd := (Multiset.nodup_add.1 inv.nodup).1
  refine Multiset.coe_nodup.1 (Multiset.nodup_of_le ?_ nd)
  exact Finset.single_le_sum (f := fun c => (s.queues.runqueue c : Multiset Tid)) (fun _ _ => Multiset.zero_le _)
    (Finset.mem_univ me)

/-- A thread is among the victims once. -/
lemma Inv.victims_nodup (inv : Inv me cur q₀ s) : s.mig.victims.Nodup :=
  Multiset.coe_nodup.1 (Multiset.nodup_add.1 inv.nodup).2.1

/-- A thread in a queue is no victim. -/
lemma Inv.queue_victims (inv : Inv me cur q₀ s) {c : Fin n} {t : Tid} (h : t ∈ s.queues.runqueue c) :
    t ∉ s.mig.victims :=
  Multiset.disjoint_left.1 (Multiset.nodup_add.1 inv.nodup).2.2 (Queues.mem_threads.2 ⟨c, h⟩)

/-- The moves of a step of the call. -/
lemma Inv.own_moves (inv : Inv me cur q₀ s) {q : Queues n} {m : Migration}
    (e : s.mig.step me cur s.queues = .ok (q, m)) :
    Moves me cur s.queues s.mig.victims q m.victims ∧ m.Fits me cur q := by
  obtain ⟨q', m', e', mv, fits⟩ := Migration.step_ok inv.fits inv.queue_nodup
  rw [e'] at e
  cases e
  exact ⟨mv, fits⟩

/-- The local variables still fit when the own queue has become longer. -/
lemma fits_mono {m : Migration} {q q' : Queues n} (fits : m.Fits me cur q)
    (le : (q.runqueue me).length ≤ (q'.runqueue me).length) : m.Fits me cur q' := by
  obtain ⟨pc, my, total, share, k, vs⟩ := m
  cases pc with
  | count i => exact ⟨fits.1, fun lt => (fits.2 lt).trans le⟩
  | take => exact ⟨fits.1, fits.2.trans le⟩
  | send i => exact fits
  | leftover => exact fits
  | finished => exact fits

/-- Another CPU puts a thread into a queue. -/
lemma Inv.enqueue (inv : Inv me cur q₀ s) {c : Fin n} {t : Tid} (off : ∀ d, t ∉ s.queues.runqueue d)
    (out : t ∉ s.mig.victims) :
    Inv me cur q₀ { s with queues := s.queues.move c [t], came := t ::ₘ s.came } where
  fits := by
    refine fits_mono inv.fits ?_
    simp only [Queues.move]
    by_cases own : me = c
    · subst own
      simp
    · rw [Function.update_of_ne own]
  nodup := by
    dsimp only
    rw [Queues.threads_move, add_right_comm, Multiset.coe_singleton, add_comm, Multiset.singleton_add,
      Multiset.nodup_cons]
    refine ⟨?_, inv.nodup⟩
    rw [Multiset.mem_add, Queues.mem_threads, Multiset.mem_coe, not_or]
    exact ⟨fun ⟨d, h⟩ => off d h, out⟩
  tcpu {d t'} h := by
    obtain h | ⟨rfl, mem⟩ := Queues.mem_move.1 h
    · have ne : t' ∉ [t] := by
        rintro h'
        rw [List.mem_singleton.1 h'] at h
        exact off d h
      exact (if_neg ne).trans (inv.tcpu h)
    · exact if_pos mem
  home {t'} h := by
    have ne : t' ∉ [t] := by
      rintro h'
      rw [List.mem_singleton.1 h'] at h
      exact out h
    exact (if_neg ne).trans (inv.home h)
  conserved := by
    dsimp only
    have balance := inv.conserved
    rw [Queues.threads_move, Multiset.coe_singleton, ← Multiset.singleton_add t s.came, add_left_comm,
      ← balance]
    abel

/-- Another CPU takes a thread out of its queue. -/
lemma Inv.dequeue (inv : Inv me cur q₀ s) {c : Fin n} {t : Tid} (ne : c ≠ me)
    (mem : t ∈ s.queues.runqueue c) :
    Inv me cur q₀ { s with
      queues := s.queues.set c ((s.queues.runqueue c).erase t), left := t ::ₘ s.left } := by
  have threads : (s.queues.set c ((s.queues.runqueue c).erase t)).threads + {t} = s.queues.threads := by
    have h := s.queues.threads_update c ((s.queues.runqueue c).erase t) s.queues.tcpu
    rw [Multiset.coe_eq_coe.2 (List.perm_cons_erase mem), ← Multiset.cons_coe, ← Multiset.singleton_add,
      ← add_assoc] at h
    exact add_right_cancel h
  refine ⟨?_, ?_, ?_, inv.home, ?_⟩
  · refine fits_mono inv.fits (le_of_eq ?_)
    simp only [Queues.set]
    rw [Function.update_of_ne (Ne.symm ne)]
  · have nd := inv.nodup
    rw [← threads, add_right_comm] at nd
    exact (Multiset.nodup_add.1 nd).1
  · intro d t' h
    rw [Queues.mem_set] at h
    split_ifs at h with same
    · rw [same]
      exact inv.tcpu (List.mem_of_mem_erase h)
    · exact inv.tcpu h
  · dsimp only
    rw [← inv.conserved, ← threads, ← Multiset.singleton_add t s.left]
    abel

/-- Every step keeps the invariant. -/
lemma Inv.step (inv : Inv me cur q₀ s) (st : MigStep me cur s s') : Inv me cur q₀ s' := by
  cases st with
  | @own q m e =>
    obtain ⟨mv, fits⟩ := inv.own_moves e
    obtain ⟨tcpu, home⟩ := mv.tcpu inv.victims_nodup inv.queue_victims inv.tcpu inv.home
    refine ⟨fits, ?_, tcpu, home, ?_⟩
    · dsimp only
      rw [mv.threads]
      exact inv.nodup
    · dsimp only
      rw [mv.threads]
      exact inv.conserved
  | enqueue off out => exact inv.enqueue off out
  | dequeue ne mem => exact inv.dequeue ne mem

/-- The invariant says what is to be kept. -/
lemma Inv.safe (inv : Inv me cur q₀ s) : Safe me cur q₀ s where
  finds := by
    obtain ⟨q, m, e, -⟩ := Migration.step_ok inv.fits inv.queue_nodup
    exact ⟨q, m, e⟩
  current e _ ne h := (inv.own_moves e).1.current ne h
  tcpu e _ _ h _ :=
    ((inv.own_moves e).1.tcpu inv.victims_nodup inv.queue_victims inv.tcpu inv.home).1 h
  conserved := inv.conserved
  emptied pc := by
    have fits := inv.fits
    rwa [Migration.Fits, pc] at fits

end MigState

/-- Whatever the other CPUs do between its critical sections, a call of `thread_consider_migration` neither
loses nor duplicates threads. -/
theorem migration_safe {me : Fin n} {cur : Tid} {q₀ : Queues n} {s : MigState n} (ord : q₀.Ordered)
    (run : Relation.ReflTransGen (MigStep me cur) ⟨q₀, .start, 0, 0⟩ s) : s.Safe me cur q₀ := by
  have inv : s.Inv me cur q₀ := by
    induction run with
    | refl => exact .start ord
    | tail _ st ih => exact ih.step st
  exact inv.safe

/-- Four threads on the first of two CPUs. -/
def fourThreads : Queues 2 := ⟨![[1, 2, 3, 4], []], fun _ => 0⟩

/-- The first CPU is idle in the context of thread `4`, which is on its queue again, and another CPU enqueues
thread `5` there after the threads have been counted: thread `5` is moved, and thread `4` is put back. -/
theorem migration_safe_skip : ∃ s : MigState 2, s.mig.pc = .finished ∧
    s.queues.runqueue 0 = [1, 2, 3, 4] ∧ s.queues.runqueue 1 = [5] ∧ s.came = {5} ∧
    s.Safe 0 4 fourThreads := by
  have ord : fourThreads.Ordered := by
    refine ⟨by decide, ?_⟩
    intro c t h
    fin_cases c
    · rfl
    · cases h
  have run : ∃ s : MigState 2, s.mig.pc = .finished ∧
      s.queues.runqueue 0 = [1, 2, 3, 4] ∧ s.queues.runqueue 1 = [5] ∧ s.came = {5} ∧
      Relation.ReflTransGen (MigStep 0 4) ⟨fourThreads, .start, 0, 0⟩ s :=
    ⟨_, rfl, rfl, rfl, rfl, ((((((((Relation.ReflTransGen.refl.tail (.own rfl)).tail (.own rfl)).tail
      (.enqueue (c := 0) (t := 5) (by decide) (by decide))).tail (.own rfl)).tail (.own rfl)).tail
      (.own rfl)).tail (.own rfl)).tail (.own rfl)).tail (.own rfl)⟩
  obtain ⟨s, fin, own, other, came, reach⟩ := run
  exact ⟨s, fin, own, other, came, migration_safe ord reach⟩

end PDS.Kern
