import Mathlib.Tactic

/-!
# Boundary tags

A stretch of memory is cut into pieces, each of them used or free, and every piece begins with a tag that says how long the
piece before it is and how long it is itself. `Tagged tag prev a l` says that from the address `a` on the tags are those
of the pieces `l`, after a piece of the size `prev`; what a tag looks like is the parameter `tag`.

`At a l x b` is the piece that starts at an address, and `Coalesced` says that no two free pieces are neighbours.
-/

namespace Tags

structure Piece where
  size : Nat
  used : Bool
deriving DecidableEq, Repr

/-- The size of all the pieces. -/
def total (l : List Piece) : Nat := (l.map Piece.size).sum

/-- No pieces have no size. -/
@[simp] lemma total_nil : total [] = 0 := rfl

/-- The first piece adds its size to the total. -/
@[simp] lemma total_cons (b : Piece) (l : List Piece) : total (b :: l) = b.size + total l := by
  simp [total]

/-- The total of two parts is the sum of their totals. -/
@[simp] lemma total_append (l l' : List Piece) : total (l ++ l') = total l + total l' := by
  simp [total]

/-- When the pieces `l` start at `a`, the piece `b` starts at `x`. -/
def At : Nat → List Piece → Nat → Piece → Prop
  | _, [], _, _ => False
  | a, c :: l, x, b => (x = a ∧ b = c) ∨ At (a + c.size) l x b

variable {a x y : Nat} {b c : Piece} {l p q : List Piece}

/-- A piece of two parts is in the first, or in the second behind it. -/
lemma at_append : At a (p ++ q) x b ↔ At a p x b ∨ At (a + total p) q x b := by
  induction p generalizing a with
  | nil => simp [At]
  | cons c p ih =>
    rw [List.cons_append, At, At, ih, total_cons, Nat.add_assoc, or_assoc]

/-- A piece stands behind all those before it. -/
lemma at_middle : At (a + total p) (b :: q) (a + total p) b := .inl ⟨rfl, rfl⟩

/-- A piece cuts the list in two. -/
lemma At.split (h : At a l x b) : ∃ p q, l = p ++ b :: q ∧ x = a + total p := by
  induction l generalizing a with
  | nil => cases h
  | cons c l ih =>
    cases h with
    | inl h =>
      obtain ⟨rfl, rfl⟩ := h
      exact ⟨[], l, rfl, rfl⟩
    | inr h =>
      obtain ⟨p, q, rfl, rfl⟩ := ih h
      exact ⟨c :: p, q, rfl, by rw [total_cons, Nat.add_assoc]⟩

/-- What stands at a place is a piece of the list. -/
lemma At.mem (h : At a l x b) : b ∈ l := by
  obtain ⟨p, q, rfl, -⟩ := h.split
  simp

/-- A piece lies within the region of the list. -/
lemma At.within (h : At a l x b) : a ≤ x ∧ x + b.size ≤ a + total l := by
  obtain ⟨p, q, rfl, rfl⟩ := h.split
  rw [total_append, total_cons]
  omega

/-- Two pieces are the same or do not overlap. -/
lemma At.apart (h : At a l x b) (h' : At a l y c) : (x = y ∧ b = c) ∨ x + b.size ≤ y ∨ y + c.size ≤ x := by
  induction l generalizing a with
  | nil => cases h
  | cons d l ih =>
    cases h with
    | inl h =>
      cases h' with
      | inl h' => exact .inl ⟨h.1.trans h'.1.symm, h.2.trans h'.2.symm⟩
      | inr h' =>
        have le := h'.within.1
        rw [h.1, h.2]
        exact .inr (.inl le)
    | inr h =>
      cases h' with
      | inl h' =>
        have le := h.within.1
        rw [h'.1, h'.2]
        exact .inr (.inr le)
      | inr h' => exact ih h h'

/-- The size of the piece before the one that follows `l`. -/
def last (prev : Nat) : List Piece → Nat
  | [] => prev
  | b :: l => last b.size l

/-- The last size after one more piece is that of the piece. -/
@[simp] lemma last_concat (prev : Nat) (l : List Piece) (b : Piece) : last prev (l ++ [b]) = b.size := by
  induction l generalizing prev with
  | nil => rfl
  | cons c l ih => exact ih c.size

/-- From `a` on there are the tags of the pieces `l`. -/
def Tagged (tag : Nat → Nat → Piece → Prop) : Nat → Nat → List Piece → Prop
  | _, _, [] => True
  | prev, a, b :: l => tag a prev b ∧ Tagged tag b.size (a + b.size) l

variable {tag tag' : Nat → Nat → Piece → Prop} {prev : Nat}

/-- Two parts are tagged if each is, the second behind the last size of the first. -/
lemma tagged_append : Tagged tag prev a (p ++ q) ↔ Tagged tag prev a p ∧ Tagged tag (last prev p) (a + total p) q := by
  induction p generalizing prev a with
  | nil => simp [Tagged, last]
  | cons c p ih => rw [List.cons_append, Tagged, Tagged, ih, last, total_cons, Nat.add_assoc, and_assoc]

/-- Only the tags of the pieces matter. -/
lemma Tagged.congr (h : Tagged tag prev a l) (keep : ∀ x prev b, At a l x b → tag x prev b → tag' x prev b) :
    Tagged tag' prev a l := by
  induction l generalizing prev a with
  | nil => trivial
  | cons c l ih =>
    refine ⟨keep _ _ _ (.inl ⟨rfl, rfl⟩) h.1, ih h.2 ?_⟩
    intro x prev b at_
    exact keep x prev b (.inr at_)

/-- The same pieces are in use. -/
def SameUsed (a : Nat) (l l' : List Piece) : Prop := ∀ x b, b.used = true → (At a l' x b ↔ At a l x b)

/-- The used pieces are the same through an intermediate list. -/
lemma SameUsed.trans {l' l'' : List Piece} (h : SameUsed a l l') (h' : SameUsed a l' l'') : SameUsed a l l'' :=
  fun x b used => (h' x b used).trans (h x b used)

/-- Having the same used pieces is symmetric. -/
lemma SameUsed.symm {l' : List Piece} (h : SameUsed a l l') : SameUsed a l' l := fun x b used => (h x b used).symm

/-- A list has the same used pieces as itself. -/
lemma SameUsed.refl (a : Nat) (l : List Piece) : SameUsed a l l := fun _ _ _ => Iff.rfl

/-- Neighbours in the middle are replaced by others that are as long. -/
lemma sameUsed_middle (mid mid' : List Piece) (size : total mid' = total mid)
    (free : ∀ b ∈ mid, b.used = false) (free' : ∀ b ∈ mid', b.used = false) :
    SameUsed a (p ++ (mid ++ q)) (p ++ (mid' ++ q)) := by
  have none : ∀ {r : List Piece} {y x b}, (∀ b ∈ r, b.used = false) → b.used = true → ¬ At y r x b := by
    intro r y x b free used h
    obtain ⟨p, q, rfl, -⟩ := h.split
    rw [free b (by simp)] at used
    cases used
  intro x b used
  rw [at_append, at_append, at_append, at_append, size]
  simp [none free used, none free' used]

/-- A piece in the middle comes into use. -/
lemma at_mark {n : Nat} (used : b.used = true) :
    At a (p ++ ⟨n, true⟩ :: q) x b ↔ At a (p ++ ⟨n, false⟩ :: q) x b ∨ (x = a + total p ∧ b = ⟨n, true⟩) := by
  have ne : b ≠ ⟨n, false⟩ := by
    rintro rfl
    cases used
  simp only [at_append, At, ne, and_false, false_or]
  tauto

/-- The last size is at most the total. -/
lemma last_le_total (l : List Piece) : last 0 l ≤ total l := by
  obtain rfl | ⟨p, b, rfl⟩ := List.eq_nil_or_concat l
  · exact le_rfl
  · rw [List.concat_eq_append, last_concat, total_append, total_cons]
    omega

/-- No two free pieces are neighbours. -/
def Coalesced (l : List Piece) : Prop := l.IsChain (fun b c => b.used = true ∨ c.used = true)

/-- The last piece is not free. -/
def LastUsed (l : List Piece) : Prop := ∀ b, l.getLast? = some b → b.used = true

/-- The first piece is not free. -/
def HeadUsed (l : List Piece) : Prop := ∀ b, l.head? = some b → b.used = true

/-- A used piece separates what must be coalesced. -/
lemma coalesced_used {n : Nat} : Coalesced (p ++ ⟨n, true⟩ :: q) ↔ Coalesced p ∧ Coalesced q := by
  simp [Coalesced, List.isChain_append, List.isChain_cons]

/-- A free piece has used neighbours in a coalesced list. -/
lemma coalesced_free {n : Nat} :
    Coalesced (p ++ ⟨n, false⟩ :: q) ↔ Coalesced p ∧ Coalesced q ∧ LastUsed p ∧ HeadUsed q := by
  simp only [Coalesced, LastUsed, HeadUsed, List.isChain_append, List.isChain_cons]
  simp
  tauto

end Tags
