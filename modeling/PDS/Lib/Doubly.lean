import PDS.Lib.Links

/-!
# Doubly linked lists in a store

A cell `i : ι` has the links `next i` and `prev i`. `Linked next prev l` says that neighbours in `l` point to each other; the
outer links of `l` can be anything. A list with bookends `x` and `y` is `Linked next prev (x :: l ++ [y])`: with these, the
operations on it are insertions and removals between two cells, and there are no special cases.
-/

namespace PDS.Doubly
open Links

variable {ι : Type} {next next' prev prev' : ι → Option ι} {l a b : List ι} {x y z : ι}

/-- Neighbours point to each other. -/
def Linked (next prev : ι → Option ι) (l : List ι) : Prop := l.IsChain fun x y => next x = some y ∧ prev y = some x

namespace Linked

/-- Backwards, the links change places. -/
lemma reverse (h : Linked next prev l) : Linked prev next l.reverse :=
  List.isChain_reverse.2 (h.imp fun _ _ both => ⟨both.2, both.1⟩)

/-- The links inwards are those that count: the first cell may have any `prev`. -/
lemma frame_cons (h : Linked next prev (x :: l)) (sameNext : ∀ i ∈ x :: l, next' i = next i)
    (samePrev : ∀ i ∈ l, prev' i = prev i) : Linked next' prev' (x :: l) := by
  refine h.imp_of_mem_tail_imp ?_
  intro i j memi memj both
  rw [sameNext i memi, samePrev j memj]
  exact both

/-- The last cell may have any `next`. -/
lemma frame_concat (h : Linked next prev (l ++ [x])) (sameNext : ∀ i ∈ l, next' i = next i)
    (samePrev : ∀ i ∈ l ++ [x], prev' i = prev i) : Linked next' prev' (l ++ [x]) := by
  have back := h.reverse
  rw [List.reverse_concat] at back
  have back' : Linked prev' next' (x :: l.reverse) := by
    refine back.frame_cons (fun i mem => samePrev i ?_) fun i mem => sameNext i (List.mem_reverse.1 mem)
    rw [← List.mem_reverse, List.reverse_concat]
    exact mem
  have forth := back'.reverse
  rwa [List.reverse_cons, List.reverse_reverse] at forth

/-- A list depends on the links of its own nodes only. -/
lemma frame (h : Linked next prev l) (sameNext : ∀ i ∈ l, next' i = next i) (samePrev : ∀ i ∈ l, prev' i = prev i) :
    Linked next' prev' l := by
  cases l with
  | nil => exact .nil
  | cons x l => exact h.frame_cons sameNext fun i mem => samePrev i (List.mem_cons_of_mem _ mem)

/-- Two parts that meet. -/
lemma append_iff : Linked next prev (a ++ x :: y :: b) ↔
    Linked next prev (a ++ [x]) ∧ (next x = some y ∧ prev y = some x) ∧ Linked next prev (y :: b) :=
  List.isChain_append_cons_cons

/-- The cells between two bookends are what is read along `next`. -/
lemma seg (h : Linked next prev (x :: l ++ [y])) : Seg next (next x) l (some y) := by
  induction l generalizing x with
  | nil =>
    obtain ⟨-, link, -⟩ := append_iff (a := []).1 h
    exact link.1
  | cons i l ih =>
    obtain ⟨-, link, rest⟩ := append_iff (a := []).1 h
    exact ⟨link.1, ih rest⟩

section

variable [DecidableEq ι]

omit [DecidableEq ι] in
/-- The nodes of a list without repetitions are apart from the two in the middle. -/
lemma apart (nodup : (a ++ x :: y :: b).Nodup) : x ∉ a ∧ y ∉ a ++ [x] ∧ x ∉ y :: b ∧ y ∉ b := by
  obtain ⟨-, right, disjoint⟩ := List.nodup_append.1 nodup
  obtain ⟨outx, right⟩ := List.nodup_cons.1 right
  refine ⟨fun mem => disjoint x mem x List.mem_cons_self rfl, ?_, outx, (List.nodup_cons.1 right).1⟩
  intro mem
  cases List.mem_append.1 mem with
  | inl mem => exact disjoint y mem y (List.mem_cons_of_mem _ List.mem_cons_self) rfl
  | inr mem => exact outx (List.mem_singleton.1 mem ▸ List.mem_cons_self)

/-- Writing two links of a cell and of another one leaves the rest alone. -/
lemma update_of_not {link : ι → Option ι} {i j k : ι} {v w : Option ι} (nej : i ≠ j) (nek : i ≠ k) :
    Function.update (Function.update link j v) k w i = link i := by
  rw [Function.update_of_ne nek, Function.update_of_ne nej]

/-- A cell is inserted between two neighbours. -/
lemma insert (h : Linked next prev (a ++ x :: y :: b)) (nodup : (a ++ x :: y :: b).Nodup) (new : z ∉ a ++ x :: y :: b) :
    Linked (Function.update (Function.update next z (some y)) x (some z))
      (Function.update (Function.update prev z (some x)) y (some z)) (a ++ x :: z :: y :: b) := by
  obtain ⟨before, -, after⟩ := append_iff.1 h
  obtain ⟨outx, outy, outx', outy'⟩ := apart nodup
  rw [List.mem_append, List.mem_cons, not_or, not_or] at new
  obtain ⟨newa, nex, newb⟩ := new
  have ney : z ≠ y := fun same => newb (same ▸ List.mem_cons_self)
  refine append_iff.2 ⟨?_, ⟨Function.update_self .., ?_⟩, append_iff (a := []).2 ⟨.singleton z, ⟨?_, ?_⟩, ?_⟩⟩
  · refine before.frame_concat (fun i mem => ?_) fun i mem => ?_
    · exact update_of_not (fun same => newa (same ▸ mem)) fun same => outx (same ▸ mem)
    · refine update_of_not ?_ fun same => outy (same ▸ mem)
      rintro rfl
      exact (List.mem_append.1 mem).elim newa fun last => nex (List.mem_singleton.1 last)
  · rw [Function.update_of_ne ney, Function.update_self]
  · rw [Function.update_of_ne nex, Function.update_self]
  · exact Function.update_self ..
  · refine after.frame_cons (fun i mem => ?_) fun i mem => ?_
    · exact update_of_not (fun same => newb (same ▸ mem)) fun same => outx' (same ▸ mem)
    · exact update_of_not (fun same => newb (same ▸ List.mem_cons_of_mem _ mem)) fun same => outy' (same ▸ mem)

/-- A cell is removed, whose links are cleared. -/
lemma remove (h : Linked next prev (a ++ x :: z :: y :: b)) (nodup : (a ++ x :: z :: y :: b).Nodup) :
    Linked (Function.update (Function.update next x (some y)) z none)
      (Function.update (Function.update prev y (some x)) z none) (a ++ x :: y :: b) := by
  obtain ⟨before, -, rest⟩ := append_iff.1 h
  obtain ⟨-, -, after⟩ := append_iff (a := []).1 rest
  obtain ⟨nodup, out⟩ : (a ++ x :: y :: b).Nodup ∧ z ∉ a ++ x :: y :: b := by
    rw [← List.singleton_append, ← List.append_assoc, List.nodup_middle, List.nodup_cons] at nodup
    rw [← List.singleton_append, ← List.append_assoc]
    exact nodup.symm
  obtain ⟨outx, outy, outx', outy'⟩ := apart nodup
  rw [List.mem_append, List.mem_cons, not_or, not_or] at out
  obtain ⟨outa, nex, outb⟩ := out
  have ney : z ≠ y := fun same => outb (same ▸ List.mem_cons_self)
  refine append_iff.2 ⟨?_, ⟨?_, ?_⟩, ?_⟩
  · refine before.frame_concat (fun i mem => ?_) fun i mem => ?_
    · exact update_of_not (fun same => outx (same ▸ mem)) fun same => outa (same ▸ mem)
    · refine update_of_not (fun same => outy (same ▸ mem)) ?_
      rintro rfl
      exact (List.mem_append.1 mem).elim outa fun last => nex (List.mem_singleton.1 last)
  · rw [Function.update_of_ne (Ne.symm nex), Function.update_self]
  · rw [Function.update_of_ne ney.symm, Function.update_self]
  · refine after.frame_cons (fun i mem => ?_) fun i mem => ?_
    · exact update_of_not (fun same => outx' (same ▸ mem)) fun same => outb (same ▸ mem)
    · exact update_of_not (fun same => outy' (same ▸ mem)) fun same => outb (same ▸ List.mem_cons_of_mem _ mem)

end

end Linked

end PDS.Doubly
