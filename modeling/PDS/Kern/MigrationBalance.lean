import Mathlib.Algebra.Order.Floor.Div
import PDS.Kern.Migration

/-!
# What a migration achieves

A call of `thread_consider_migration` while no other CPU acts. The run queue of the current CPU is left with one share
of all threads, rounded up, and no other queue gets more than that from it. The other queues have room for all that is
to be sent, because all queues together do not have more than a share for each CPU.
-/

namespace PDS.Kern

variable {n : Nat}

/-- All the threads on run queues (C `total_count`). -/
def Queues.count (q : Queues n) : Nat := ∑ c, (q.runqueue c).length

/-- What one CPU should have of them (C `one_share`). -/
def Queues.oneShare (q : Queues n) : Nat := q.count ⌈/⌉ n

/-- A step of a call while no other CPU acts. -/
def Alone (me : Fin n) (cur : Tid) (s s' : Queues n × Migration) : Prop := s.2.step me cur s.1 = .ok s'

/-- The run queues `q` after a call that began with `q₀`: the own queue has its share, and the current thread if it was
one of those after the first share; no other queue has got more than a share; and the threads that stayed are in the
order in which they were. -/
structure Balanced (me : Fin n) (cur : Tid) (q₀ q : Queues n) : Prop where
  own : (q.runqueue me).length =
    if cur ∈ (q₀.runqueue me).drop q₀.oneShare then q₀.oneShare + 1 else q₀.oneShare
  others : ∀ c ≠ me, (q.runqueue c).length ≤ max (q₀.runqueue c).length q₀.oneShare
  order : (q.runqueue me).Sublist (q₀.runqueue me)

section Counting

variable {q : Queues n} {c : Fin n} {l ts : List Tid}

/-- The other queues stay. -/
lemma Queues.runqueue_set_of_ne {d : Fin n} (ne : d ≠ c) : (q.set c l).runqueue d = q.runqueue d :=
  Function.update_of_ne ne ..

/-- The count is the number of threads. -/
lemma Queues.count_eq_card (q : Queues n) : q.count = q.threads.card := by
  rw [threads, Multiset.card_sum]
  rfl

/-- The threads that are moved count. -/
lemma Queues.count_move (q : Queues n) (c : Fin n) (ts : List Tid) : (q.move c ts).count = q.count + ts.length := by
  rw [count_eq_card, threads_move, Multiset.card_add, ← count_eq_card, Multiset.coe_card]

/-- The threads that are taken away do not. -/
lemma Queues.count_set (e : q.runqueue c = l ++ ts) : (q.set c l).count + ts.length = q.count := by
  rw [count_eq_card, count_eq_card, ← threads_set e, Multiset.card_add, Multiset.coe_card]

/-- All threads have a place. -/
lemma Queues.count_le (q : Queues n) (pos : 0 < n) : q.count ≤ n * q.oneShare := by
  rw [oneShare, ← smul_eq_mul]
  exact le_smul_ceilDiv pos

/-- The threads that the first loop has counted. -/
def Queues.countBelow (q : Queues n) (i : Nat) : Nat :=
  ∑ c ∈ Finset.univ.filter fun c : Fin n => c.val < i, (q.runqueue c).length

/-- Before the first CPU. -/
lemma Queues.countBelow_zero (q : Queues n) : q.countBelow 0 = 0 := by
  rw [countBelow, Finset.filter_false_of_mem fun c _ => Nat.not_lt_zero c.val, Finset.sum_empty]

/-- One more CPU. -/
lemma Queues.countBelow_succ (q : Queues n) {i : Nat} (lt : i < n) :
    q.countBelow (i + 1) = q.countBelow i + (q.runqueue ⟨i, lt⟩).length := by
  have insert : (Finset.univ.filter fun c : Fin n => c.val < i + 1) =
      insert ⟨i, lt⟩ (Finset.univ.filter fun c : Fin n => c.val < i) := by
    ext c
    rw [Finset.mem_insert, Finset.mem_filter, Finset.mem_filter, Fin.ext_iff]
    simp only [Finset.mem_univ, true_and]
    omega
  have new : (⟨i, lt⟩ : Fin n) ∉ Finset.univ.filter fun c : Fin n => c.val < i := by
    rw [Finset.mem_filter]
    exact fun h => Nat.lt_irrefl i h.2
  rw [countBelow, insert, Finset.sum_insert new, Nat.add_comm]
  rfl

/-- All CPUs. -/
lemma Queues.countBelow_all (q : Queues n) : q.countBelow n = q.count := by
  rw [countBelow, Finset.filter_true_of_mem fun c _ => c.isLt]
  rfl

end Counting

/-- While threads are sent: the own queue has its share, and the other queues have been filled in turn. -/
structure Sending (me : Fin n) (cur : Tid) (q₀ q : Queues n) (i toSend : Nat) (victims : List Tid) : Prop where
  sendable : Sendable cur victims toSend
  current : cur ∈ victims ↔ cur ∈ (q₀.runqueue me).drop q₀.oneShare
  own : q.runqueue me = (q₀.runqueue me).take q₀.oneShare
  others : ∀ c ≠ me, (q.runqueue c).length ≤ max (q₀.runqueue c).length q₀.oneShare
  filled : toSend = 0 ∨ ∀ c ≠ me, c.val < i → q₀.oneShare ≤ (q.runqueue c).length
  sent : q.count + toSend ≤ q₀.count

/-- The invariant of a call while no other CPU acts. -/
def Migration.Solo (me : Fin n) (cur : Tid) (q₀ q : Queues n) (m : Migration) : Prop :=
  match m.pc with
  | .count i => i ≤ n ∧ q = q₀ ∧ m.victims = [] ∧ m.totalCount = q₀.countBelow i ∧
      (me.val < i → m.myCount = (q₀.runqueue me).length)
  | .take => q = q₀ ∧ m.victims = [] ∧ m.oneShare = q₀.oneShare ∧
      m.toSend = (q₀.runqueue me).length - q₀.oneShare
  | .send i => i ≤ n ∧ m.oneShare = q₀.oneShare ∧ Sending me cur q₀ q i m.toSend m.victims
  | .leftover => Sending me cur q₀ q n 0 m.victims
  | .finished => Balanced me cur q₀ q

/-- How many steps are left. -/
def MigPc.rank (n : Nat) : MigPc → Nat
  | .count i => (n - i) + n + 4
  | .take => n + 3
  | .send i => (n - i) + 2
  | .leftover => 1
  | .finished => 0

section Steps

variable {me : Fin n} {cur : Tid} {q₀ q : Queues n} {m : Migration} {i k : Nat} {vs : List Tid}

/-- When every other queue has been filled there is nothing left to send. -/
lemma Sending.done (sn : Sending me cur q₀ q n k vs) (long : q₀.oneShare ≤ (q₀.runqueue me).length) : k = 0 := by
  refine sn.filled.elim id fun full => ?_
  have each (c : Fin n) : q₀.oneShare ≤ (q.runqueue c).length := by
    by_cases own : c = me
    · rw [own, sn.own, List.length_take_of_le long]
    · exact full c own c.isLt
  have all : n * q₀.oneShare ≤ q.count := by
    have le := Finset.card_nsmul_le_sum Finset.univ (fun c => (q.runqueue c).length) q₀.oneShare fun c _ => each c
    rwa [Finset.card_univ, Fintype.card_fin, smul_eq_mul] at le
  have le := q₀.count_le me.pos
  have sent := sn.sent
  omega

/-- The end of the call. -/
lemma Sending.balanced (sn : Sending me cur q₀ q n 0 vs) (long : q₀.oneShare ≤ (q₀.runqueue me).length) :
    Balanced me cur q₀ (q.set me (q.runqueue me ++ vs)) := by
  have own : (q.set me (q.runqueue me ++ vs)).runqueue me = (q₀.runqueue me).take q₀.oneShare ++ vs := by
    rw [← sn.own]
    exact Function.update_self ..
  have length := List.length_take_of_le long
  have current := sn.current
  obtain ⟨-, none | ⟨ts, rfl, none⟩⟩ := sn.sendable
  · obtain rfl := List.eq_nil_of_length_eq_zero none
    refine ⟨?_, ?_, ?_⟩
    · rw [own, if_neg (fun h => List.not_mem_nil (current.2 h)), List.append_nil, length]
    · intro c ne
      rw [Queues.runqueue_set_of_ne ne]
      exact sn.others c ne
    · rw [own, List.append_nil]
      exact List.take_sublist ..
  · -- the current thread is put back behind the others
    obtain rfl := List.eq_nil_of_length_eq_zero none
    have tried := current.1 (List.mem_singleton_self cur)
    refine ⟨?_, ?_, ?_⟩
    · rw [own, if_pos tried, List.length_append, length]
      rfl
    · intro c ne
      rw [Queues.runqueue_set_of_ne ne]
      exact sn.others c ne
    · rw [own]
      have sub := (List.Sublist.refl ((q₀.runqueue me).take q₀.oneShare)).append (List.singleton_sublist.2 tried)
      rwa [List.take_append_drop] at sub

/-- A step of the call, which is not finished. -/
lemma Migration.Solo.step (solo : m.Solo me cur q₀ q) (nodup : (q₀.runqueue me).Nodup)
    (long : q₀.oneShare ≤ (q₀.runqueue me).length) (open' : m.pc ≠ .finished) :
    ∃ q' m', m.step me cur q = .ok (q', m') ∧ m'.Solo me cur q₀ q' ∧ m'.pc.rank n < m.pc.rank n := by
  obtain ⟨pc, my, total, share, k, vs⟩ := m
  cases pc with
  | count i =>
    obtain ⟨le, rfl, rfl, rfl, counted⟩ := solo
    by_cases h : i < n
    · refine ⟨q, _, dif_pos h, ⟨h, rfl, rfl, (q.countBelow_succ h).symm, fun lt => ?_⟩, ?_⟩
      · by_cases self : ⟨i, h⟩ = me
        · exact (if_pos self).trans (congrArg (fun c => (q.runqueue c).length) self)
        · refine (if_neg self).trans (counted (lt_of_le_of_ne (Nat.le_of_lt_succ lt) ?_))
          exact fun same => self (Fin.ext same.symm)
      · dsimp only [MigPc.rank]
        omega
    · obtain rfl : i = n := by omega
      have my_eq := counted me.isLt
      have share : (q.countBelow i + i - 1) / i = q.oneShare := by
        rw [q.countBelow_all, Queues.oneShare, Nat.ceilDiv_eq_add_pred_div]
      dsimp only at my_eq
      rw [← my_eq, ← share] at long
      refine ⟨q, _, (dif_neg h).trans (if_neg (Nat.not_lt.2 long)), ⟨rfl, rfl, share, ?_⟩, ?_⟩
      · rw [← my_eq, ← share]
      · dsimp only [MigPc.rank]
        omega
  | take =>
    obtain ⟨rfl, rfl, rfl, rfl⟩ := solo
    have split := (List.take_append_drop q.oneShare (q.runqueue me)).symm
    have length : ((q.runqueue me).drop q.oneShare).length = (q.runqueue me).length - q.oneShare := List.length_drop
    have loop := @takeLoop_append ((q.runqueue me).take q.oneShare) ((q.runqueue me).drop q.oneShare) []
    rw [List.append_nil, List.take_append_drop, length] at loop
    refine ⟨q.set me ((q.runqueue me).take q.oneShare), ⟨.send 0, my, total, q.oneShare,
      (q.runqueue me).length - q.oneShare, (q.runqueue me).drop q.oneShare⟩, ?_, ⟨Nat.zero_le _, rfl, ?_⟩, ?_⟩
    · rw [Migration.step, loop]
      rfl
    · refine ⟨⟨nodup.sublist (List.drop_sublist ..), .inl length⟩, .rfl, ?_, ?_, ?_, ?_⟩
      · exact Function.update_self ..
      · intro c ne
        rw [Queues.runqueue_set_of_ne ne]
        exact le_max_left ..
      · exact .inr fun c _ lt => absurd lt (Nat.not_lt_zero _)
      · rw [← length]
        exact (Queues.count_set split).le
    · dsimp only [MigPc.rank]
      omega
  | send i =>
    obtain ⟨le, rfl, sn⟩ := solo
    dsimp only at le sn
    by_cases h : i < n ∧ k > 0
    · have filled := sn.filled.resolve_left h.2.ne'
      by_cases self : ⟨i, h.1⟩ = me
      · refine ⟨q, _, (dif_pos h).trans (if_pos self), ⟨h.1, rfl, { sn with filled := .inr fun c ne lt => ?_ }⟩, ?_⟩
        · refine filled c ne (lt_of_le_of_ne (Nat.le_of_lt_succ lt) fun same => ne ?_)
          rw [← self]
          exact Fin.ext same
        · dsimp only [MigPc.rank]
          omega
      · obtain ⟨k', ts, rest, e, sd, perm, skip, count, few, full⟩ :=
          @sendLoop_ok n cur ⟨i, h.1⟩ q₀.oneShare k q vs sn.sendable
        have new : ((q.move ⟨i, h.1⟩ ts).runqueue ⟨i, h.1⟩).length = (q.runqueue ⟨i, h.1⟩).length + ts.length := by
          rw [← List.length_append]
          exact congrArg List.length (Function.update_self ..)
        have old {c : Fin n} (ne : c ≠ ⟨i, h.1⟩) : (q.move ⟨i, h.1⟩ ts).runqueue c = q.runqueue c :=
          Function.update_of_ne ne ..
        refine ⟨q.move ⟨i, h.1⟩ ts, ⟨.send (i + 1), my, total, q₀.oneShare, k', rest⟩, ?_, ⟨h.1, rfl, ?_⟩, ?_⟩
        · refine (dif_pos h).trans ((if_neg self).trans ?_)
          rw [e]
          rfl
        · refine ⟨sd, ?_, ?_, ?_, ?_, ?_⟩
          · rw [← sn.current, ← perm.mem_iff, List.mem_append, or_iff_right skip]
          · rw [old (Ne.symm self), sn.own]
          · intro c ne
            by_cases same : c = ⟨i, h.1⟩
            · subst same
              have bound := sn.others _ ne
              obtain rfl | few := few
              · rw [new]
                exact bound
              · rw [new]
                exact few.trans (le_max_right ..)
            · rw [old same]
              exact sn.others c ne
          · refine full.imp_right fun full c ne lt => ?_
            by_cases same : c = ⟨i, h.1⟩
            · subst same
              rwa [new]
            · rw [old same]
              exact filled c ne (lt_of_le_of_ne (Nat.le_of_lt_succ lt) fun eq => same (Fin.ext eq))
          · have sent := sn.sent
            dsimp only
            rw [Queues.count_move]
            omega
        · dsimp only [MigPc.rank]
          omega
    · have stop : k = 0 := by
        by_contra some
        obtain rfl : i = n := by omega
        exact some (sn.done long)
      subst stop
      refine ⟨q, _, dif_neg h, { sn with filled := .inl rfl }, ?_⟩
      dsimp only [MigPc.rank]
      omega
  | leftover =>
    refine ⟨q.set me (q.runqueue me ++ vs), ⟨.finished, my, total, share, k, []⟩, ?_, solo.balanced long,
      Nat.zero_lt_one⟩
    rw [Migration.step, putBack_eq]
    rfl
  | finished => exact absurd rfl open'

/-- A step when nobody else takes one. -/
lemma Alone.solo {s s' : Queues n × Migration} (solo : s.2.Solo me cur q₀ s.1) (nodup : (q₀.runqueue me).Nodup)
    (long : q₀.oneShare ≤ (q₀.runqueue me).length) (alone : Alone me cur s s') : s'.2.Solo me cur q₀ s'.1 := by
  by_cases fin : s.2.pc = .finished
  · rw [Alone, Migration.step, fin] at alone
    cases alone
    exact solo
  · obtain ⟨q', m', e, solo', -⟩ := solo.step nodup long fin
    cases alone.symm.trans e
    exact solo'

/-- The invariant holds as long as no other CPU acts. -/
lemma Alone.solo_run {s s' : Queues n × Migration} (solo : s.2.Solo me cur q₀ s.1) (nodup : (q₀.runqueue me).Nodup)
    (long : q₀.oneShare ≤ (q₀.runqueue me).length) (run : Relation.ReflTransGen (Alone me cur) s s') :
    s'.2.Solo me cur q₀ s'.1 := by
  induction run with
  | refl => exact solo
  | tail _ alone ih => exact alone.solo ih nodup long

/-- The call comes to its end. -/
lemma Migration.Solo.finishes {s : Queues n × Migration} (solo : s.2.Solo me cur q₀ s.1)
    (nodup : (q₀.runqueue me).Nodup) (long : q₀.oneShare ≤ (q₀.runqueue me).length) :
    ∃ s', Relation.ReflTransGen (Alone me cur) s s' ∧ s'.2.pc = .finished := by
  induction h : s.2.pc.rank n using Nat.strong_induction_on generalizing s with
  | _ rank ih =>
    by_cases fin : s.2.pc = .finished
    · exact ⟨s, .refl, fin⟩
    · obtain ⟨q', m', e, solo', less⟩ := solo.step nodup long fin
      obtain ⟨s', run, fin'⟩ := ih _ (h ▸ less) (s := (q', m')) solo' rfl
      exact ⟨s', .head e run, fin'⟩

end Steps

/-- On a CPU that has at least its share of the threads, a call during which no other CPU acts comes to its end, and
then the threads are shared out. -/
theorem migration_balances {me : Fin n} {cur : Tid} {q₀ : Queues n} (nodup : (q₀.runqueue me).Nodup)
    (long : q₀.oneShare ≤ (q₀.runqueue me).length) :
    (∃ s, Relation.ReflTransGen (Alone me cur) (q₀, .start) s ∧ s.2.pc = .finished) ∧
    ∀ s, Relation.ReflTransGen (Alone me cur) (q₀, .start) s → s.2.pc = .finished → Balanced me cur q₀ s.1 := by
  have start : Migration.start.Solo me cur q₀ q₀ :=
    ⟨Nat.zero_le _, rfl, rfl, q₀.countBelow_zero.symm, fun h => absurd h (Nat.not_lt_zero _)⟩
  refine ⟨Migration.Solo.finishes (s := (q₀, .start)) start nodup long, fun s run fin => ?_⟩
  have solo := Alone.solo_run start nodup long run
  rwa [Migration.Solo, fin] at solo

/-- Five threads on the second of three CPUs, whose share is two. -/
def fiveThreads : Queues 3 := ⟨![[], [1, 2, 3, 4, 5], []], fun _ => 1⟩

/-- The current thread is one of those to be sent, and stays. -/
theorem migration_balances_current : ∃ s, Relation.ReflTransGen (Alone 1 4) (fiveThreads, .start) s ∧
    s.2.pc = .finished ∧ (s.1.runqueue 1).length = 3 := by
  have balances := @migration_balances 3 1 4 fiveThreads (by decide) (by decide)
  obtain ⟨⟨s, run, fin⟩, balanced⟩ := balances
  refine ⟨s, run, fin, (balanced s run fin).own.trans ?_⟩
  decide

end PDS.Kern
