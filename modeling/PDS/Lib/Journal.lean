import Mathlib.Data.List.Nodup
import Mathlib.Logic.Function.Basic

/-!
# Output under a lock

Writers that put one message each into a common output, piece by piece, each while it holds a lock. `Written` says what
has come out: whole messages, in the order in which their writers have had the lock, and a part of the message of the
writer that has it now.
-/

namespace Journal

/-- Where a writer is. -/
inductive Phase (β : Type*) where
  | before
  /-- it holds the lock, and `rest` is still to be written -/
  | writing (rest : List β)
  | after

variable {ι β : Type*} {msg msg' : ι → List β} {phase : ι → Phase β} {lock : Option ι} {order : List ι} {out : List β}
  {i : ι} {b : β} {rest : List β}

/-- The writers `order` are done, and `out` has come out. -/
structure Written (msg : ι → List β) (phase : ι → Phase β) (lock : Option ι) (order : List ι) (out : List β) : Prop where
  nodup : order.Nodup
  done : ∀ i, i ∈ order ↔ phase i = .after
  holder : ∀ i rest, phase i = .writing rest → lock = some i
  free : lock = none → out = order.flatMap msg
  held : ∀ i, lock = some i → ∃ part rest, phase i = .writing rest ∧ msg i = part ++ rest ∧
    out = order.flatMap msg ++ part

namespace Written

/-- Nothing has been written at the start. -/
lemma start (new : ∀ i, phase i = .before) : Written msg phase none [] [] := by
  refine ⟨List.nodup_nil, fun i => ?_, fun i rest writing => ?_, fun _ => rfl, nofun⟩
  · rw [new]
    exact iff_of_false List.not_mem_nil nofun
  · rw [new] at writing
    cases writing

/-- The messages of those who have not started are of no matter. -/
lemma congr (w : Written msg phase lock order out) (same : ∀ i, phase i ≠ .before → msg' i = msg i) :
    Written msg' phase lock order out := by
  have whole : order.flatMap msg' = order.flatMap msg := by
    refine List.flatMap_congr fun i mem => same i ?_
    rw [(w.done i).1 mem]
    exact nofun
  refine ⟨w.nodup, w.done, w.holder, fun free => ?_, fun i held => ?_⟩
  · rw [whole]
    exact w.free free
  · obtain ⟨part, rest, writing, split, eq⟩ := w.held i held
    refine ⟨part, rest, writing, ?_, ?_⟩
    · rw [same i (by rw [writing]; exact nofun)]
      exact split
    · rw [whole]
      exact eq

variable [DecidableEq ι]

/-- A writer takes the lock. -/
lemma acquire (w : Written msg phase none order out) (before : phase i = .before) :
    Written msg (Function.update phase i (.writing (msg i))) (some i) order out := by
  refine ⟨w.nodup, fun j => ?_, fun j rest writing => ?_, nofun, fun j held => ?_⟩
  · rw [w.done]
    obtain rfl | ne := eq_or_ne j i
    · rw [before, Function.update_self]
      exact iff_of_false nofun nofun
    · rw [Function.update_of_ne ne]
  · obtain rfl | ne := eq_or_ne j i
    · rfl
    · rw [Function.update_of_ne ne] at writing
      cases w.holder j rest writing
  · cases held
    refine ⟨[], msg i, Function.update_self .., rfl, ?_⟩
    rw [List.append_nil]
    exact w.free rfl

/-- The writer that owns the lock writes one symbol. -/
lemma put (w : Written msg phase lock order out) (writing : phase i = .writing (b :: rest)) :
    Written msg (Function.update phase i (.writing rest)) lock order (out ++ [b]) := by
  have mine := w.holder i _ writing
  refine ⟨w.nodup, fun j => ?_, fun j rest' writing' => ?_, fun free => ?_, fun j held => ?_⟩
  · rw [w.done]
    obtain rfl | ne := eq_or_ne j i
    · rw [writing, Function.update_self]
      exact iff_of_false nofun nofun
    · rw [Function.update_of_ne ne]
  · obtain rfl | ne := eq_or_ne j i
    · exact mine
    · rw [Function.update_of_ne ne] at writing'
      exact w.holder j rest' writing'
  · cases mine.symm.trans free
  · cases mine.symm.trans held
    obtain ⟨part, rest', writing', split, eq⟩ := w.held i held
    cases writing.symm.trans writing'
    refine ⟨part ++ [b], rest, Function.update_self .., ?_, ?_⟩
    · rw [split, List.append_assoc]
      rfl
    · rw [eq, List.append_assoc]

/-- A writer that has written everything lets the lock go. -/
lemma release (w : Written msg phase lock order out) (writing : phase i = .writing []) :
    Written msg (Function.update phase i .after) none (order ++ [i]) out := by
  have mine := w.holder i _ writing
  have new : i ∉ order := by
    rw [w.done, writing]
    exact nofun
  refine ⟨w.nodup.append (List.nodup_singleton i) (List.disjoint_singleton.2 new), fun j => ?_,
    fun j rest writing' => ?_, fun _ => ?_, nofun⟩
  · rw [List.mem_append, List.mem_singleton, w.done]
    obtain rfl | ne := eq_or_ne j i
    · rw [Function.update_self]
      exact iff_of_true (.inr rfl) rfl
    · rw [Function.update_of_ne ne, or_iff_left ne]
  · obtain rfl | ne := eq_or_ne j i
    · rw [Function.update_self] at writing'
      cases writing'
    · rw [Function.update_of_ne ne] at writing'
      cases mine.symm.trans (w.holder j rest writing')
      exact absurd rfl ne
  · obtain ⟨part, rest, writing', split, eq⟩ := w.held i mine
    cases writing.symm.trans writing'
    rw [eq, List.flatMap_append, List.flatMap_singleton, split, List.append_nil]

end Written

end Journal
