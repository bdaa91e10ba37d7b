import Mathlib.Tactic

/-!
# Walks in depth first order

`Forest kids roots visited` says that `visited` are the nodes of a walk from the nodes `roots`, each before the walk
from its children `kids`. A node that can be reached in two ways is visited twice.
-/

variable {α : Type*} {kids : α → List α} {roots roots' visited visited' : List α} {i j : α}

/-- The nodes of a walk in depth first order. -/
inductive Forest (kids : α → List α) : List α → List α → Prop where
  | nil : Forest kids [] []
  | cons {i below roots after} (down : Forest kids (kids i) below) (right : Forest kids roots after) :
    Forest kids (i :: roots) (i :: (below ++ after))

namespace Forest

/-- A node with its walk. -/
lemma single (down : Forest kids (kids i) visited) : Forest kids [i] (i :: visited) := by
  have walk := Forest.cons down .nil
  rwa [List.append_nil] at walk

/-- Two forests one behind the other are a forest. -/
lemma append (h : Forest kids roots visited) (h' : Forest kids roots' visited') :
    Forest kids (roots ++ roots') (visited ++ visited') := by
  induction h with
  | nil => exact h'
  | @cons i below roots after down _ _ ih =>
    rw [List.cons_append, List.cons_append, List.append_assoc]
    exact .cons down ih

/-- Each root has its walk. -/
lemma exists_walk (each : ∀ i ∈ roots, ∃ visited, Forest kids [i] visited) : ∃ visited, Forest kids roots visited := by
  induction roots with
  | nil => exact ⟨[], .nil⟩
  | cons i roots ih =>
    obtain ⟨here, later⟩ := List.forall_mem_cons.1 each
    obtain ⟨v, walk⟩ := here
    obtain ⟨v', walk'⟩ := ih later
    exact ⟨v ++ v', walk.append walk'⟩

/-- The walk from the first of the roots comes first. -/
lemma split (h : Forest kids (roots ++ roots') visited) :
    ∃ v v', visited = v ++ v' ∧ Forest kids roots v ∧ Forest kids roots' v' := by
  induction roots generalizing visited with
  | nil => exact ⟨[], visited, rfl, .nil, h⟩
  | cons i roots ih =>
    cases h with
    | @cons _ below _ after down right =>
      obtain ⟨v, v', rfl, walk, walk'⟩ := ih right
      refine ⟨i :: (below ++ v), v', ?_, .cons down walk, walk'⟩
      rw [List.cons_append, List.append_assoc]

/-- What is visited are the roots and the children of what is visited. -/
lemma perm (h : Forest kids roots visited) : (roots ++ visited.flatMap kids).Perm visited := by
  induction h with
  | nil => exact .nil
  | @cons i below roots after _ _ ihDown ihRight =>
    rw [List.cons_append, List.flatMap_cons, List.flatMap_append]
    refine .cons i ?_
    have swap : (roots ++ (kids i ++ below.flatMap kids)).Perm (kids i ++ below.flatMap kids ++ roots) :=
      List.perm_append_comm
    have all := (swap.append_right (after.flatMap kids)).trans
      ((List.append_assoc _ _ _).symm ▸ ihDown.append ihRight)
    simpa only [List.append_assoc] using all

/-- The roots of a forest are visited. -/
lemma root_mem (h : Forest kids roots visited) (mem : i ∈ roots) : i ∈ visited :=
  h.perm.subset (List.mem_append_left _ mem)

/-- The children of a node that is visited are visited. -/
lemma kid_mem (h : Forest kids roots visited) (mem : i ∈ visited) (kid : j ∈ kids i) : j ∈ visited :=
  h.perm.subset (List.mem_append_right _ (List.mem_flatMap.2 ⟨i, mem, kid⟩))

end Forest
