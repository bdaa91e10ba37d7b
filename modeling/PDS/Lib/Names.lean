import Mathlib.Tactic

/-!
# Tables whose entries have names

`Unique names l` says that no name is one of two different entries of the table `l`. A search by name then gives the same
result in every order of the table.
-/

namespace Names

variable {α ν β : Type*} {names : α → List ν} {l l' : List α} {a b : α} {i : Nat}

/-- No name is one of two different entries. -/
def Unique (names : α → List ν) (l : List α) : Prop := l.Pairwise fun a b => (names a).Disjoint (names b)

/-- The table with one entry replaced. -/
lemma unique_set (get : l[i]? = some a) :
    Unique names (l.set i b) ↔ (∀ o ∈ l.eraseIdx i, (names b).Disjoint (names o)) ∧ Unique names (l.eraseIdx i) := by
  have lt := (List.getElem?_eq_some_iff.1 get).1
  rw [Unique, Unique, List.set_eq_take_append_cons_drop, if_pos lt, List.pairwise_middle fun h => h.symm,
    List.pairwise_cons, List.eraseIdx_eq_take_drop_succ]

/-- The entries apart from one. -/
lemma Unique.erase (u : Unique names l) : Unique names (l.eraseIdx i) := u.sublist (List.eraseIdx_sublist ..)

/-- Two of the objects have no name in common. -/
lemma Unique.apart (u : Unique names l) (get : l[i]? = some a) {o : α} (mem : o ∈ l.eraseIdx i) :
    (names a).Disjoint (names o) := by
  have lt := (List.getElem?_eq_some_iff.1 get).1
  have same : l.set i a = l := by
    apply List.ext_getElem?
    intro j
    rw [List.getElem?_set]
    split
    next e =>
      subst e
      exact get.symm
    next => rfl
  rw [← same] at u
  exact ((unique_set get).1 u).1 o mem

/-- A search that only finds entries of a given name does not depend on the order. -/
lemma Unique.findSome?_perm (u : Unique names l) (perm : l.Perm l') {f : α → Option β} {n : ν}
    (named : ∀ a, f a ≠ none → n ∈ names a) : l.findSome? f = l'.findSome? f := by
  induction perm with
  | nil => rfl
  | cons a _ ih =>
    rw [List.findSome?_cons, List.findSome?_cons, ih (List.pairwise_cons.1 u).2]
  | swap a b l =>
    rw [List.findSome?_cons, List.findSome?_cons, List.findSome?_cons, List.findSome?_cons]
    cases ha : f a with
    | none => rfl
    | some x =>
      cases hb : f b with
      | none => rfl
      | some y =>
        have disjoint := (List.pairwise_cons.1 u).1 a List.mem_cons_self
        have nb := named b (by rw [hb]; nofun)
        have na := named a (by rw [ha]; nofun)
        exact (disjoint nb na).elim
  | trans p _ ih ih' =>
    exact (ih u).trans (ih' ((p.pairwise_iff fun h => h.symm).1 u))

end Names
