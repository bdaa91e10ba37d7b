import PDS.Lib.Forest
import PDS.Cpp.LibroRun

/-!
# Document order

The walk in depth first order from an object comes to the paragraphs below it in document order. `exists_walk` says that
a tree that has been built has such a walk, and that the first of the paths to a paragraph with a string is that to the
first such paragraph of the walk.
-/

namespace PDS.Cpp.Testi
open Links

section

variable {m : Heap} {t u : Ptr} {c : Contenitore} {s testo : Stringa} {path : List Nat} {kids : Ptr → List Ptr}
  {roots visited : List Ptr} {ns : List NodePtr}

/-- The children of all objects, in order. -/
structure Elenca (m : Heap) (kids : Ptr → List Ptr) : Prop where
  some : ∀ t c ns, m.contenitore t = some c → Chain m.next c.elenco ns → kids t = ns.map m.t
  none : ∀ t, m.contenitore t = none → kids t = []

/-- A paragraph that the walk comes to has a path from where the walk begins. -/
lemma leads_of_walk (elenca : Elenca m kids) (ord : Ordinato m) (walk : Forest kids roots visited)
    (mem : u ∈ visited) (here : m.testi[u]? = some (.paragrafo testo)) :
    ∃ t ∈ roots, ∃ path, Leads m t path testo := by
  induction walk with
  | nil => exact absurd mem List.not_mem_nil
  | @cons t below roots after _ _ ihDown ihRight =>
    rcases List.mem_cons.1 mem with rfl | mem
    · exact ⟨u, List.mem_cons_self, [], .qui here⟩
    · rcases List.mem_append.1 mem with mem | mem
      · obtain ⟨v, kid, path, leads⟩ := ihDown mem
        cases cont : m.contenitore t with
        | none =>
          rw [elenca.none t cont] at kid
          exact absurd kid List.not_mem_nil
        | some c =>
          obtain ⟨ns, chain⟩ := ord.chain t c cont
          rw [elenca.some t c ns cont chain] at kid
          obtain ⟨n, mem, rfl⟩ := List.mem_map.1 kid
          obtain ⟨i, get⟩ := List.getElem?_of_mem mem
          exact ⟨t, List.mem_cons_self, _, .giu cont chain get leads⟩
      · obtain ⟨v, root, leads⟩ := ihRight mem
        exact ⟨v, List.mem_cons_of_mem t root, leads⟩

/-- A path leads to a paragraph that the walk comes to. -/
lemma walk_of_leads (elenca : Elenca m kids) (walk : Forest kids roots visited) (leads : Leads m t path testo)
    (mem : t ∈ visited) : ∃ u ∈ visited, m.testi[u]? = some (.paragrafo testo) := by
  induction leads with
  | qui here => exact ⟨_, mem, here⟩
  | giu cont chain get below ih =>
    refine ih (walk.kid_mem mem ?_)
    rw [elenca.some _ _ _ cont chain]
    exact List.mem_map_of_mem (List.mem_of_getElem? get)

/-- The first of the paths leads to the first paragraph of the walk. -/
lemma Primo.walk (elenca : Elenca m kids) (ord : Ordinato m) (first : Primo m t s path testo)
    (walk : Forest kids [t] visited) : ∃ a u b, visited = a ++ u :: b ∧ m.testi[u]? = some (.paragrafo testo) ∧
      ∀ v ∈ a, ∀ testo', m.testi[v]? = some (.paragrafo testo') → ¬ Contiene s testo' := by
  obtain ⟨leads, has, first⟩ := first
  induction leads generalizing visited with
  | @qui t testo here =>
    cases walk with
    | cons down right => exact ⟨[], t, _, rfl, here, fun v no => absurd no List.not_mem_nil⟩
  | @giu t c ns i n path testo cont chain get below ih =>
    cases walk with
    | @cons _ under _ after down right =>
      rw [elenca.some t c ns cont chain] at down
      obtain ⟨lt, eq⟩ := List.getElem?_eq_some_iff.1 get
      have cut : ns = ns.take i ++ ([n] ++ ns.drop (i + 1)) := by
        rw [List.singleton_append, ← eq, ← List.drop_eq_getElem_cons lt, List.take_append_drop]
      rw [cut, List.map_append, List.map_append] at down
      obtain ⟨v₁, rest, rfl, before, down⟩ := down.split
      obtain ⟨v₂, v₃, rfl, here, -⟩ := down.split
      have child : ∀ path' testo', Leads m (m.t n) path' testo' → Contiene s testo' →
          path = path' ∨ List.Lex (· < ·) path path' := by
        intro path' testo' leads' has'
        cases first _ testo' (.giu cont chain get leads') has' with
        | inl same => exact .inl (List.cons.inj same).2
        | inr less =>
          cases less with
          | rel lt => exact absurd lt (Nat.lt_irrefl _)
          | cons less => exact .inr less
      obtain ⟨a, u, b, rfl, text, none⟩ := ih here has child
      refine ⟨t :: (v₁ ++ a), u, b ++ v₃ ++ after, ?_, text, ?_⟩
      · simp only [List.cons_append, List.append_assoc]
      · intro v mem testo' here' has'
        rcases List.mem_cons.1 mem with rfl | mem
        · rw [Heap.contenitore, here'] at cont
          cases cont
        · rcases List.mem_append.1 mem with mem | mem
          · -- below a child before this one, to which a path that is less leads
            obtain ⟨w, root, q, leads'⟩ := leads_of_walk elenca ord before mem here'
            obtain ⟨k, kid, rfl⟩ := List.mem_map.1 root
            obtain ⟨j, get'⟩ := List.getElem?_of_mem kid
            have lt : j < i := by
              have lt := (List.getElem?_eq_some_iff.1 get').1
              rw [List.length_take] at lt
              omega
            rw [List.getElem?_take_of_lt lt] at get'
            cases first _ testo' (.giu cont chain get' leads') has' with
            | inl same =>
              have same := Nat.succ.inj (List.cons.inj same).1
              omega
            | inr less =>
              cases less with
              | rel less => omega
              | cons less => omega
          · exact none v mem testo' here' has'

/-- Every tree that has been built has a walk. The string is nowhere below the object when no paragraph of the walk has
it, and otherwise the first of the paths to a paragraph with it leads to the first one of the walk. -/
theorem exists_walk {es : List Event} (built : run .empty es = some m) (albero : Albero m t) :
    ∃ kids visited, Elenca m kids ∧ Forest kids [t] visited ∧ ∀ s,
      (Senza m t s ↔ ∀ u ∈ visited, ∀ testo, m.testi[u]? = some (.paragrafo testo) → ¬ Contiene s testo) ∧
      ∀ path testo, Primo m t s path testo → ∃ a u b, visited = a ++ u :: b ∧ m.testi[u]? = some (.paragrafo testo) ∧
        ∀ v ∈ a, ∀ testo', m.testi[v]? = some (.paragrafo testo') → ¬ Contiene s testo' := by
  obtain ⟨cells, inv⟩ := Inv.empty.run built
  have ord := inv.ordinato
  have elenca : Elenca m fun t => (cells t).map m.t := by
    refine ⟨fun t c ns cont chain => ?_, fun t cont => ?_⟩
    · rw [chain.unique (inv.chain t c cont).1]
    · rw [inv.none t cont]
      rfl
  have walk : ∃ visited, Forest (fun t => (cells t).map m.t) [t] visited := by
    induction albero with
    | intro t _ ih =>
      obtain ⟨below, walk⟩ := Forest.exists_walk fun u kid => ih u (inv.figlio_iff.2 (List.mem_map.1 kid))
      exact ⟨t :: below, walk.single⟩
  obtain ⟨visited, walk⟩ := walk
  have root := walk.root_mem List.mem_cons_self
  refine ⟨_, visited, elenca, walk, fun s => ⟨⟨?_, ?_⟩, fun path testo first => first.walk elenca ord walk⟩⟩
  · intro senza u mem testo here
    obtain ⟨v, last, path, leads⟩ := leads_of_walk elenca ord walk mem here
    cases List.mem_singleton.1 last
    exact senza path testo leads
  · intro none path testo leads
    obtain ⟨u, mem, here⟩ := walk_of_leads elenca walk leads root
    exact none u mem testo here

end

end PDS.Cpp.Testi
