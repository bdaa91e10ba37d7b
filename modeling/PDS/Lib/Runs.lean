import Mathlib.Data.List.Basic

/-!
# Runs

The maximal runs of elements that are no separators, in the order in which they stand in a list: what a tokenizer finds.
-/

namespace PDS.Runs

variable {α : Type} {sep : α → Bool} {s t w : List α} {c : α}

/-- The maximal runs of `s` without a separator that are not empty. -/
def runs (sep : α → Bool) (s : List α) : List (List α) := (s.splitOnP sep).filter fun w => !w.isEmpty

/-- The empty string has no runs. -/
lemma runs_nil : runs sep [] = [] := by
  rw [runs, List.splitOnP_nil]
  rfl

/-- A separator separates the runs on its sides. -/
lemma runs_append_cons (hc : sep c = true) : runs sep (s ++ c :: t) = runs sep s ++ runs sep t := by
  rw [runs, List.splitOnP_append_cons s t hc, List.filter_append]
  rfl

/-- Separators in front are skipped. -/
lemma runs_blanks (blank : ∀ c ∈ s, sep c = true) : runs sep (s ++ t) = runs sep t := by
  induction s with
  | nil => rfl
  | cons c s ih =>
    have skip := runs_append_cons (s := []) (t := s ++ t) (blank c List.mem_cons_self)
    rw [runs_nil, List.nil_append, List.nil_append] at skip
    rw [List.cons_append, skip]
    exact ih fun c' mem => blank c' (List.mem_cons_of_mem _ mem)

/-- Separators alone have no runs. -/
lemma runs_of_blanks (blank : ∀ c ∈ s, sep c = true) : runs sep s = [] := by
  have skip := runs_blanks (t := []) blank
  rwa [List.append_nil, runs_nil] at skip

/-- A string without separators is one run. -/
lemma runs_word (solid : ∀ c ∈ w, sep c = false) (ne : w ≠ []) : runs sep w = [w] := by
  rw [runs, List.splitOnP_eq_singleton solid]
  obtain ⟨c, w, rfl⟩ := List.exists_cons_of_ne_nil ne
  rfl

/-- A string without separators is the first run of what it begins. -/
lemma runs_word_cons (solid : ∀ c ∈ w, sep c = false) (ne : w ≠ []) (hc : sep c = true) :
    runs sep (w ++ c :: t) = w :: runs sep t := by
  rw [runs_append_cons hc, runs_word solid ne, List.singleton_append]

/-- A list begins with elements that are no separators, up to its end or to a separator. -/
lemma exists_solid (s : List α) :
    ∃ w r, s = w ++ r ∧ (∀ c ∈ w, sep c = false) ∧ (r = [] ∨ ∃ c t, r = c :: t ∧ sep c = true) := by
  induction s with
  | nil => exact ⟨[], [], rfl, fun c no => absurd no List.not_mem_nil, .inl rfl⟩
  | cons c s ih =>
    cases hc : sep c with
    | true => exact ⟨[], c :: s, rfl, fun c no => absurd no List.not_mem_nil, .inr ⟨c, s, rfl, hc⟩⟩
    | false =>
      obtain ⟨w, r, rfl, solid, stop⟩ := ih
      exact ⟨c :: w, r, rfl, List.forall_mem_cons.2 ⟨hc, solid⟩, stop⟩

/-- Where a list has a run, it begins with separators and the first run, up to its end or to a separator. -/
lemma exists_first (some_ : ¬ ∀ c ∈ s, sep c = true) : ∃ b w r, s = b ++ (w ++ r) ∧ (∀ c ∈ b, sep c = true) ∧ w ≠ [] ∧
    (∀ c ∈ w, sep c = false) ∧ (r = [] ∨ ∃ c t, r = c :: t ∧ sep c = true) := by
  induction s with
  | nil => exact absurd (fun c no => absurd no List.not_mem_nil) some_
  | cons c s ih =>
    cases hc : sep c with
    | true =>
      have later : ¬ ∀ c ∈ s, sep c = true := fun all => some_ (List.forall_mem_cons.2 ⟨hc, all⟩)
      obtain ⟨b, w, r, rfl, blank, word⟩ := ih later
      exact ⟨c :: b, w, r, rfl, List.forall_mem_cons.2 ⟨hc, blank⟩, word⟩
    | false =>
      obtain ⟨w, r, rfl, solid, stop⟩ := exists_solid s
      exact ⟨[], c :: w, r, rfl, fun c no => absurd no List.not_mem_nil, List.cons_ne_nil _ _,
        List.forall_mem_cons.2 ⟨hc, solid⟩, stop⟩

/-- A run that is followed by a separator ends there. -/
lemma solid_append_inj {v : List α} {b : α} (hw : ∀ c ∈ w, sep c = false) (hv : ∀ c ∈ v, sep c = false)
    (hb : sep b = true) (hc : sep c = true) (eq : w ++ b :: s = v ++ c :: t) : w = v ∧ b :: s = c :: t := by
  induction w generalizing v with
  | nil =>
    cases v with
    | nil => exact ⟨rfl, eq⟩
    | cons d v =>
      have same := (List.cons.inj eq).1
      rw [same, hv d List.mem_cons_self] at hb
      cases hb
  | cons d w ih =>
    obtain ⟨hd, hw⟩ := List.forall_mem_cons.1 hw
    cases v with
    | nil =>
      have same := (List.cons.inj eq).1
      rw [← same, hd] at hc
      cases hc
    | cons d' v =>
      obtain ⟨same, rest⟩ := List.cons.inj eq
      obtain ⟨rfl, tail⟩ := ih hw (fun c mem => hv c (List.mem_cons_of_mem _ mem)) rest
      exact ⟨congrArg (· :: w) same, tail⟩

/-- A run is no longer than the list. -/
lemma length_le_of_mem_runs (mem : w ∈ runs sep s) : w.length ≤ s.length := by
  induction h : s.length using Nat.strongRecOn generalizing s with
  | _ n ih =>
    by_cases blank : ∀ c ∈ s, sep c = true
    · rw [runs_of_blanks blank] at mem
      exact absurd mem List.not_mem_nil
    · obtain ⟨b, v, r, rfl, blanks, ne, solid, stop⟩ := exists_first blank
      rw [List.length_append, List.length_append] at h
      obtain rfl | ⟨c, t, rfl, hc⟩ := stop
      · rw [runs_blanks blanks, List.append_nil, runs_word solid ne, List.mem_singleton] at mem
        rw [mem]
        omega
      · rw [runs_blanks blanks, runs_word_cons solid ne hc] at mem
        rw [List.length_cons] at h
        obtain rfl | later := List.mem_cons.1 mem
        · omega
        · have short := ih t.length (by omega) later rfl
          omega

end PDS.Runs
