import Mathlib.Tactic

/-!
# Exclusive ownership

A bookkeeping pattern of concurrent resource managers: every resource in circulation (`H`) has exactly
one owner, and every owner has at most one resource. The owners are whatever the program distinguishes
(a table entry, a thread between two critical sections, a client). A step of the program hands out a new
resource (`Owned.add`), passes one on (`Owned.transfer`) or takes one back (`Owned.drop`).
-/

namespace PDS

variable {ω α : Type}

/-- `R` relates the resources of `H` to their owners, one to one. -/
structure Owned (R : ω → α → Prop) (H : α → Prop) : Prop where
  sound : ∀ {o a}, R o a → H a
  inj : ∀ {o o' a}, R o a → R o' a → o = o'
  func : ∀ {o a b}, R o a → R o b → a = b
  total : ∀ {a}, H a → ∃ o, R o a

namespace Owned

variable {R R' : ω → α → Prop} {H H' : α → Prop} {c d : ω} {a : α}

/-- Ownership depends on who has what only. -/
lemma congr (ow : Owned R H) (hR : ∀ o x, R' o x ↔ R o x) (hH : ∀ x, H' x ↔ H x) : Owned R' H' where
  sound h := (hH _).2 (ow.sound ((hR _ _).1 h))
  inj h h' := ow.inj ((hR _ _).1 h) ((hR _ _).1 h')
  func h h' := ow.func ((hR _ _).1 h) ((hR _ _).1 h')
  total h := by
    obtain ⟨o, ho⟩ := ow.total ((hH _).1 h)
    exact ⟨o, (hR _ _).2 ho⟩

/-- A new resource for an owner that had none. -/
lemma add (ow : Owned R H) (new : ¬ H a) (idle : ∀ x, ¬ R c x)
    (hR : ∀ o x, R' o x ↔ R o x ∨ (o = c ∧ x = a)) (hH : ∀ x, H' x ↔ H x ∨ x = a) :
    Owned R' H' where
  sound h := by
    rw [hH]
    cases (hR _ _).1 h with
    | inl h => exact .inl (ow.sound h)
    | inr h => exact .inr h.2
  inj {o o' x} h h' := by
    cases (hR _ _).1 h with
    | inl h =>
      cases (hR _ _).1 h' with
      | inl h' => exact ow.inj h h'
      | inr h' => exact absurd (h'.2 ▸ ow.sound h) new
    | inr h =>
      cases (hR _ _).1 h' with
      | inl h' => exact absurd (h.2 ▸ ow.sound h') new
      | inr h' => exact h.1.trans h'.1.symm
  func {o x y} h h' := by
    cases (hR _ _).1 h with
    | inl h =>
      cases (hR _ _).1 h' with
      | inl h' => exact ow.func h h'
      | inr h' => exact absurd (h'.1 ▸ h) (idle x)
    | inr h =>
      cases (hR _ _).1 h' with
      | inl h' => exact absurd (h.1 ▸ h') (idle y)
      | inr h' => exact h.2.trans h'.2.symm
  total {x} h := by
    cases (hH x).1 h with
    | inl h =>
      obtain ⟨o, ho⟩ := ow.total h
      exact ⟨o, (hR _ _).2 (.inl ho)⟩
    | inr h => exact ⟨c, (hR _ _).2 (.inr ⟨rfl, h⟩)⟩

/-- Some owners give up what they have. -/
lemma restrict (ow : Owned R H) (P : ω → Prop) (hR : ∀ o x, R' o x ↔ R o x ∧ P o)
    (hH : ∀ x, H' x ↔ H x ∧ ∀ o, R o x → P o) : Owned R' H' where
  sound {o x} h := by
    obtain ⟨h, keeps⟩ := (hR _ _).1 h
    refine (hH x).2 ⟨ow.sound h, ?_⟩
    intro o' h'
    rw [ow.inj h' h]
    exact keeps
  inj h h' := ow.inj ((hR _ _).1 h).1 ((hR _ _).1 h').1
  func h h' := ow.func ((hR _ _).1 h).1 ((hR _ _).1 h').1
  total {x} h := by
    obtain ⟨h, keeps⟩ := (hH x).1 h
    obtain ⟨o, ho⟩ := ow.total h
    exact ⟨o, (hR _ _).2 ⟨ho, keeps o ho⟩⟩

/-- Giving a resource up. -/
lemma drop (ow : Owned R H) (own : R c a) (hR : ∀ o x, R' o x ↔ R o x ∧ o ≠ c)
    (hH : ∀ x, H' x ↔ H x ∧ x ≠ a) : Owned R' H' := by
  refine ow.restrict (· ≠ c) hR ?_
  intro x
  rw [hH]
  refine and_congr_right (fun _ => ⟨?_, ?_⟩)
  · rintro ne o ho rfl
    exact ne (ow.func ho own)
  · rintro keeps rfl
    exact keeps c own rfl

/-- Passing a resource on to an owner that had none. -/
lemma transfer (ow : Owned R H) (own : R c a) (idle : ∀ x, ¬ R d x)
    (hR : ∀ o x, R' o x ↔ (R o x ∧ o ≠ c) ∨ (o = d ∧ x = a)) (hH : ∀ x, H' x ↔ H x) :
    Owned R' H' := by
  have dropped : Owned (fun o x => R o x ∧ o ≠ c) (fun x => H x ∧ x ≠ a) :=
    ow.drop own (fun _ _ => Iff.rfl) (fun _ => Iff.rfl)
  refine dropped.add (a := a) (c := d) (fun h => h.2 rfl) (fun x h => idle x h.1) hR ?_
  intro x
  rw [hH]
  constructor
  · intro h
    by_cases e : x = a
    · exact .inr e
    · exact .inl ⟨h, e⟩
  · rintro (h | rfl)
    · exact h.1
    · exact ow.sound own

end Owned

end PDS
