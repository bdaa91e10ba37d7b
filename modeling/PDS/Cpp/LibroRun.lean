import PDS.Cpp.LibroTrova

/-!
# Books that are built

`Inv` says which nodes are in the list of which object. A child is added behind the others, and the lists of other
objects stay as they are (`Inv.aggiungi`). `capitoloDi` builds chapters of any length, among them one that is too long
for the counter of `trova`.
-/

namespace PDS.Cpp.Testi
open Links

section

variable {m m' : Heap} {cells : Ptr → List NodePtr} {self t u : Ptr} {c : Contenitore} {o : Testo} {l : List Ptr}
  {ns : List NodePtr}

/-- The list of children of a new object, and of the others. -/
lemma contenitore_new : (m.new o).contenitore t = if t = m.testi.length then o.contenitore else m.contenitore t := by
  rw [Heap.contenitore, Heap.contenitore, Heap.new]
  split_ifs with last
  · rw [last, List.getElem?_concat_length, Option.bind_some]
  · rw [List.getElem?_append]
    split_ifs with lt
    · rfl
    · have out : [o].length ≤ t - m.testi.length :=
        Nat.sub_pos_of_lt (Nat.lt_of_le_of_ne (Nat.not_lt.1 lt) (Ne.symm last))
      rw [List.getElem?_eq_none out, List.getElem?_eq_none (Nat.not_lt.1 lt)]

/-- The object `self` after its list of children has changed. -/
lemma contenitore_set (lt : self < m.testi.length) :
    Heap.contenitore { m with testi := m.testi.set self o } t =
      if t = self then o.contenitore else m.contenitore t := by
  rw [Heap.contenitore, Heap.contenitore]
  split_ifs with same
  · rw [same, List.getElem?_set_self lt, Option.bind_some]
  · rw [List.getElem?_set_ne (Ne.symm same)]

/-- An object keeps its class when there is a new one. -/
lemma classe_new {k : Classe} (here : m.classe t = some k) : (m.new o).classe t = some k := by
  obtain ⟨o', get, cls⟩ := Option.map_eq_some_iff.1 here
  rw [Heap.classe, Heap.new, List.getElem?_append_left (List.getElem?_eq_some_iff.1 get).1, get]
  exact congrArg some cls

/-- Objects keep their classes when one gets a child. -/
lemma classe_set (same : m.classe self = some o.classe) :
    Heap.classe { m with testi := m.testi.set self o } t = m.classe t := by
  obtain ⟨o', get, cls⟩ := Option.map_eq_some_iff.1 same
  rw [Heap.classe, Heap.classe]
  obtain rfl | ne := eq_or_ne t self
  · rw [List.getElem?_set_self (List.getElem?_eq_some_iff.1 get).1, get]
    exact congrArg some cls.symm
  · rw [List.getElem?_set_ne ne.symm]

/-- An object with a class is in the store. -/
lemma Heap.lt_of_classe {k : Classe} (here : m.classe t = some k) : t < m.testi.length := by
  obtain ⟨o, get, -⟩ := Option.map_eq_some_iff.1 here
  exact (List.getElem?_eq_some_iff.1 get).1

/-- The object `u` can be a child of `t`. -/
def Ammette (m : Heap) (t u : Ptr) : Prop :=
  ∃ k k', m.classe t = some k ∧ m.classe u = some k' ∧ k.ammette k' = true

/-- Each container has its own nodes, in the order in which they were added. -/
structure Inv (m : Heap) (cells : Ptr → List NodePtr) : Prop where
  chain : ∀ t c, m.contenitore t = some c → Chain m.next c.elenco (cells t) ∧ c.coda = (cells t).getLast?
  none : ∀ t, m.contenitore t = none → cells t = []
  nodup : ∀ t, (cells t).Nodup
  apart : ∀ t u, t ≠ u → ∀ n ∈ cells t, n ∉ cells u
  old : ∀ t, ∀ n ∈ cells t, n < m.nodes
  ammette : ∀ t, ∀ n ∈ cells t, Ammette m t (m.t n)

namespace Inv

/-- There are no objects at the start. -/
lemma empty : Inv .empty fun _ => [] :=
  ⟨fun _ _ no => (nomatch no), fun _ _ => rfl, fun _ => List.nodup_nil, fun _ _ _ _ no => absurd no List.not_mem_nil,
    fun _ _ no => absurd no List.not_mem_nil, fun _ _ no => absurd no List.not_mem_nil⟩

/-- A new object has no children. -/
lemma new (inv : Inv m cells) (empty : ∀ c, o.contenitore = some c → c = .vuoto) : Inv (m.new o) cells := by
  have fresh : m.contenitore m.testi.length = Option.none := by
    rw [Heap.contenitore, List.getElem?_eq_none (Nat.le_refl _), Option.bind_none]
  refine ⟨fun t c cont => ?_, fun t cont => ?_, inv.nodup, inv.apart, inv.old, fun t n mem => ?_⟩
  · rw [contenitore_new] at cont
    split_ifs at cont with last
    · rw [empty c cont, last, inv.none _ fresh]
      exact ⟨rfl, rfl⟩
    · exact inv.chain t c cont
  · rw [contenitore_new] at cont
    split_ifs at cont with last
    · rw [last]
      exact inv.none _ fresh
    · exact inv.none t cont
  · obtain ⟨k, k', cls, cls', ok⟩ := inv.ammette t n mem
    exact ⟨k, k', classe_new cls, classe_new cls', ok⟩

/-- A node is linked behind those of an object. -/
lemma add (inv : Inv m cells) (cont : m.contenitore self = some c) :
    ∃ c' m', m.add c t = .ok (c', m') ∧ Chain m'.next c'.elenco (cells self ++ [m.nodes]) ∧ c'.coda = some m.nodes ∧
      m'.testi = m.testi ∧ m'.nodes = m.nodes + 1 ∧ m'.t = Function.update m.t m.nodes t ∧
      ∀ n, n ∉ cells self → n ≠ m.nodes → m'.next n = m.next n := by
  obtain ⟨chain, coda⟩ := inv.chain self c cont
  have out : m.nodes ∉ cells self := fun mem => Nat.lt_irrefl _ (inv.old self _ mem)
  have link := chain.update (v := Option.none) out
  rw [Heap.add]
  cases e : c.elenco with
  | none =>
    rw [e] at chain
    have empty : cells self = [] := chain.unique rfl
    refine ⟨_, _, rfl, ?_, rfl, rfl, rfl, rfl, fun n _ ne => Function.update_of_ne ne _ _⟩
    rw [empty]
    exact ⟨rfl, Function.update_self ..⟩
  | some first =>
    cases last : c.coda with
    | none =>
      rw [coda, List.getLast?_eq_none_iff] at last
      rw [last, e] at chain
      cases chain
    | some k =>
      have mem : k ∈ cells self := List.mem_of_getLast? (coda ▸ last)
      refine ⟨_, _, rfl, ?_, rfl, rfl, rfl, rfl, fun n no ne => ?_⟩
      · have relink := link.setLink (v := some m.nodes) (inv.nodup self)
        rw [← coda, last, Links.setLink, e] at relink
        refine seg_append.2 ⟨some m.nodes, relink, rfl, ?_⟩
        have ne : m.nodes ≠ k := fun same => out (same ▸ mem)
        exact (Function.update_of_ne ne _ _).trans (Function.update_self ..)
      · have ne' : n ≠ k := fun same => no (same ▸ mem)
        exact (Function.update_of_ne ne' _ _).trans (Function.update_of_ne ne _ _)

/-- The nodes of an object after one has been added. -/
lemma mem_update {n : NodePtr} : n ∈ Function.update cells self (cells self ++ [m.nodes]) u ↔
    n ∈ cells u ∨ u = self ∧ n = m.nodes := by
  obtain rfl | ne := eq_or_ne u self
  · rw [Function.update_self, List.mem_append, List.mem_singleton, and_iff_right rfl]
  · rw [Function.update_of_ne ne, or_iff_left fun both => ne both.1]

/-- The objects after a child has been added to `self`. -/
lemma link (inv : Inv m cells) (cont : m.contenitore self = some c) (ok : Ammette m self t) {c' : Contenitore}
    (add : m.add c t = .ok (c', m')) (list : o.contenitore = some c') (cls : m.classe self = some o.classe) :
    Inv { m' with testi := m'.testi.set self o } (Function.update cells self (cells self ++ [m.nodes])) ∧
      m'.testi = m.testi ∧ m'.t = Function.update m.t m.nodes t := by
  obtain ⟨d, k, add', chain, coda, testi, nodes, child, frame⟩ := inv.add (t := t) cont
  cases add.symm.trans add'
  have kept (u : Ptr) : Heap.classe { m' with testi := m'.testi.set self o } u = m.classe u := by
    have cls' : m'.classe self = some o.classe := by
      rwa [Heap.classe, testi]
    rw [classe_set cls', Heap.classe, testi, Heap.classe]
  have here : self < m'.testi.length := by
    rw [testi]
    exact Heap.lt_of_contenitore cont
  have out (u : Ptr) : m.nodes ∉ cells u := fun mem => Nat.lt_irrefl _ (inv.old u _ mem)
  have same (u : Ptr) : m'.contenitore u = m.contenitore u := by
    rw [Heap.contenitore, Heap.contenitore, testi]
  refine ⟨⟨fun u c₁ cont₁ => ?_, fun u none => ?_, fun u => ?_, fun u v ne n mem => ?_, fun u n mem => ?_,
    fun u n mem => ?_⟩, testi, child⟩
  · rw [contenitore_set here] at cont₁
    split_ifs at cont₁ with e
    · rw [e, Function.update_self, List.getLast?_concat]
      cases list.symm.trans cont₁
      exact ⟨chain, coda⟩
    · rw [Function.update_of_ne e]
      obtain ⟨chain₁, coda₁⟩ := inv.chain u c₁ ((same u).symm.trans cont₁)
      refine ⟨chain₁.frame fun n mem => frame n (inv.apart u self e n mem) ?_, coda₁⟩
      exact fun last => out u (last ▸ mem)
  · rw [contenitore_set here] at none
    split_ifs at none with e
    · cases list.symm.trans none
    · rw [Function.update_of_ne e]
      exact inv.none u ((same u).symm.trans none)
  · obtain rfl | ne := eq_or_ne u self
    · rw [Function.update_self]
      exact (List.nodup_cons.2 ⟨out u, inv.nodup u⟩).perm (List.perm_append_singleton _ _).symm
    · rw [Function.update_of_ne ne]
      exact inv.nodup u
  · intro mem'
    rw [mem_update] at mem mem'
    rcases mem with mem | ⟨rfl, rfl⟩
    · rcases mem' with mem' | ⟨rfl, rfl⟩
      · exact inv.apart u v ne n mem mem'
      · exact out u mem
    · rcases mem' with mem' | ⟨same, -⟩
      · exact out v mem'
      · exact ne same.symm
  · change n < m'.nodes
    rw [nodes]
    rcases mem_update.1 mem with mem | ⟨-, rfl⟩
    · exact Nat.lt_succ_of_lt (inv.old u n mem)
    · exact Nat.lt_succ_self _
  · change Ammette _ u (m'.t n)
    rw [Ammette, kept, kept, child]
    rcases mem_update.1 mem with mem | ⟨rfl, rfl⟩
    · have ne : n ≠ m.nodes := fun last => out u (last ▸ mem)
      rw [Function.update_of_ne ne]
      exact inv.ammette u n mem
    · rw [Function.update_self]
      exact ok

/-- `aggiungi` adds a child that the object can have behind the others, and refuses others. -/
lemma aggiungi (inv : Inv m cells) (cont : m.contenitore self = some c) (lt : t < m.testi.length) :
    (m.aggiungi self t = .error .badHierarchy ∧ ¬ Ammette m self t) ∨
    ∃ m', m.aggiungi self t = .ok m' ∧ Inv m' (Function.update cells self (cells self ++ [m.nodes])) ∧
      m'.t = Function.update m.t m.nodes t ∧ ∃ o, m.classe self = some o.classe ∧ m'.testi = m.testi.set self o := by
  obtain ⟨o, get, list⟩ := Option.bind_eq_some_iff.1 cont
  obtain ⟨o', get'⟩ : ∃ o', m.testi[t]? = some o' := ⟨_, List.getElem?_eq_getElem lt⟩
  have cls : m.classe self = some o.classe := by
    rw [Heap.classe, get, Option.map_some]
  have cls' : m.classe t = some o'.classe := by
    rw [Heap.classe, get', Option.map_some]
  obtain ⟨c', k, add, -⟩ := inv.add (t := t) cont
  have refuse (no : o.classe.ammette o'.classe = false) : ¬ Ammette m self t := by
    rintro ⟨a, b, here, there, ok⟩
    cases cls.symm.trans here
    cases cls'.symm.trans there
    rw [no] at ok
    cases ok
  have accept (ok : o.classe.ammette o'.classe = true) {p : Testo} (list' : p.contenitore = some c')
      (same : p.classe = o.classe) : Inv { k with testi := k.testi.set self p }
        (Function.update cells self (cells self ++ [m.nodes])) ∧
      k.t = Function.update m.t m.nodes t ∧
        ∃ o, m.classe self = some o.classe ∧ k.testi.set self p = m.testi.set self o := by
    obtain ⟨inv', testi, child⟩ := inv.link cont ⟨_, _, cls, cls', ok⟩ add list' (same ▸ cls)
    exact ⟨inv', child, p, same ▸ cls, congrArg (List.set · self p) testi⟩
  rw [Heap.aggiungi, get, get']
  cases o with
  | paragrafo testo => cases list
  | capitolo c =>
    cases list
    cases o' with
    | libro titolo d => exact .inl ⟨rfl, refuse rfl⟩
    | paragrafo testo =>
      refine .inr ⟨{ k with testi := k.testi.set self (.capitolo c') }, ?_, accept rfl rfl rfl⟩
      dsimp only
      rw [add]
    | capitolo d =>
      refine .inr ⟨{ k with testi := k.testi.set self (.capitolo c') }, ?_, accept rfl rfl rfl⟩
      dsimp only
      rw [add]
  | libro titolo c =>
    cases list
    cases o' with
    | libro titolo d => exact .inl ⟨rfl, refuse rfl⟩
    | paragrafo testo => exact .inl ⟨rfl, refuse rfl⟩
    | capitolo d =>
      refine .inr ⟨{ k with testi := k.testi.set self (.libro titolo c') }, ?_, accept rfl rfl rfl⟩
      dsimp only
      rw [add]

/-- The step lemma. -/
lemma step (inv : Inv m cells) {e : Event} (step : step m e = some m') : ∃ cells', Inv m' cells' := by
  cases e with
  | paragrafo testo =>
    cases step
    exact ⟨cells, inv.new fun c no => (nomatch no)⟩
  | capitolo =>
    cases step
    exact ⟨cells, inv.new fun c list => (Option.some.inj list).symm⟩
  | libro titolo =>
    cases step
    exact ⟨cells, inv.new fun c list => (Option.some.inj list).symm⟩
  | aggiungi self t =>
    rw [Testi.step] at step
    split_ifs at step with legal
    obtain ⟨c, cont⟩ := Option.isSome_iff_exists.1 legal.1
    rcases inv.aggiungi cont legal.2 with ⟨thrown, -⟩ | ⟨k, added, inv', -⟩
    · rw [thrown] at step
      cases step
      exact ⟨cells, inv⟩
    · rw [added] at step
      cases step
      exact ⟨_, inv'⟩

/-- The run lemma. -/
lemma run (inv : Inv m cells) {es : List Event} (run : run m es = some m') : ∃ cells', Inv m' cells' := by
  induction es generalizing m cells with
  | nil =>
    cases run
    exact ⟨cells, inv⟩
  | cons e es ih =>
    obtain ⟨k, first, rest⟩ := Option.bind_eq_some_iff.1 run
    obtain ⟨cells', inv'⟩ := inv.step first
    exact ih inv' rest

/-- The children of an object are those of its nodes. -/
lemma figlio_iff (inv : Inv m cells) : Figlio m u t ↔ ∃ n ∈ cells t, m.t n = u := by
  constructor
  · rintro ⟨c, ns, n, cont, chain, mem, rfl⟩
    rw [chain.unique (inv.chain t c cont).1] at mem
    exact ⟨n, mem, rfl⟩
  · rintro ⟨n, mem, rfl⟩
    cases cont : m.contenitore t with
    | none =>
      rw [inv.none t cont] at mem
      exact absurd mem List.not_mem_nil
    | some c => exact ⟨c, cells t, n, cont, (inv.chain t c cont).1, mem, rfl⟩

/-- The lists of children are lists of objects. -/
lemma ordinato (inv : Inv m cells) : Ordinato m := by
  refine ⟨fun t c cont => ⟨cells t, (inv.chain t c cont).1⟩, fun u t figlio => ?_⟩
  obtain ⟨n, mem, rfl⟩ := inv.figlio_iff.1 figlio
  obtain ⟨-, k', -, cls', -⟩ := inv.ammette t n mem
  exact Heap.lt_of_classe cls'

end Inv

/-- Whatever is added, books have chapters, chapters have chapters and paragraphs, and paragraphs have no children. -/
theorem figlio_ammette {es : List Event} (built : run .empty es = some m) (figlio : Figlio m u t) : Ammette m t u := by
  obtain ⟨cells, inv⟩ := Inv.empty.run built
  obtain ⟨n, mem, rfl⟩ := inv.figlio_iff.1 figlio
  exact inv.ammette t n mem

/-- On every tree that has been built, `trova` ends with an answer, which is right exactly when the numbers of the
children on the way to the first paragraph with the string fit into an `unsigned int`. -/
theorem trova_risponde_iff {es : List Event} (built : run .empty es = some m) (cont : m.contenitore t = some c)
    (albero : Albero m t) {s : Stringa} (ne : s ≠ []) :
    ∃ r, Termina m t s r ∧ (Risponde m t s r ↔ Numerabile m t s) := by
  obtain ⟨cells, inv⟩ := Inv.empty.run built
  obtain ⟨r, ends, ris⟩ := trova_risolve inv.ordinato ne albero (Heap.lt_of_contenitore cont)
  exact ⟨r, ends, risponde_iff ne cont ris⟩

/-- What is below an object is a tree if it is so for its children. -/
lemma albero_of_figli (cont : m.contenitore t = some c) (chain : Chain m.next c.elenco ns)
    (figli : ∀ n ∈ ns, Albero m (m.t n)) : Albero m t := by
  refine .intro _ ?_
  rintro u ⟨c', ns', n, cont', chain', mem, rfl⟩
  cases cont.symm.trans cont'
  exact figli n (chain'.unique chain ▸ mem)

/-- Below a paragraph there is nothing. -/
lemma albero_paragrafo {testo : Stringa} (here : m.testi[t]? = some (.paragrafo testo)) : Albero m t := by
  refine .intro _ ?_
  rintro u ⟨c', ns', n, cont', -⟩
  rw [Heap.contenitore, here] at cont'
  cases cont'

end

/-- A chapter is constructed, and paragraphs with the texts `l` are added to it. -/
def capitoloDi (l : List Stringa) : List Event :=
  .capitolo :: l.zipIdx.flatMap fun p => [.paragrafo p.1, .aggiungi 0 (p.2 + 1)]

/-- The first object is a chapter, and the others are its children, paragraphs with the texts `l`. -/
structure CapitoloDi (m : Heap) (l : List Stringa) : Prop where
  inv : ∃ cells, Inv m cells ∧ (cells 0).map m.t = List.range' 1 l.length
  testi : ∃ c, m.testi = .capitolo c :: l.map .paragrafo

namespace CapitoloDi

variable {m : Heap} {l : List Stringa} {path : List Nat} {s testo : Stringa}

/-- One more paragraph. -/
lemma aggiungi (cap : CapitoloDi m l) (testo : Stringa) :
    ∃ m', run m [.paragrafo testo, .aggiungi 0 (l.length + 1)] = some m' ∧ CapitoloDi m' (l ++ [testo]) := by
  obtain ⟨cells, inv, kids⟩ := cap.inv
  obtain ⟨c, testi⟩ := cap.testi
  have inv' := inv.new (o := .paragrafo testo) fun c no => (nomatch no)
  have testi' : (m.new (.paragrafo testo)).testi = .capitolo c :: (l ++ [testo]).map .paragrafo := by
    rw [Heap.new, testi, List.map_append]
    rfl
  have cont : (m.new (.paragrafo testo)).contenitore 0 = some c := by
    rw [Heap.contenitore, testi']
    rfl
  have lt : l.length + 1 < (m.new (.paragrafo testo)).testi.length := by
    rw [testi', List.length_cons, List.length_map, List.length_append, List.length_singleton]
    exact Nat.lt_succ_self _
  have here : (m.new (.paragrafo testo)).testi[l.length + 1]? = some (.paragrafo testo) := by
    rw [testi', List.getElem?_cons_succ, List.getElem?_map, List.getElem?_concat_length]
    rfl
  have ok : Ammette (m.new (.paragrafo testo)) 0 (l.length + 1) := by
    refine ⟨.capitolo, .paragrafo, ?_, ?_, rfl⟩
    · rw [Heap.classe, testi']
      rfl
    · rw [Heap.classe, here]
      rfl
  obtain ⟨-, no⟩ | ⟨m', added, inv'', child, o, cls, set⟩ := inv'.aggiungi cont lt
  · exact absurd ok no
  refine ⟨m', ?_, ⟨_, inv'', ?_⟩, ?_⟩
  · have legal : ((m.new (.paragrafo testo)).contenitore 0).isSome ∧
        l.length + 1 < (m.new (.paragrafo testo)).testi.length := ⟨by rw [cont]; rfl, lt⟩
    change (step (m.new (.paragrafo testo)) (.aggiungi 0 (l.length + 1))).bind some = some m'
    rw [step, if_pos legal, added]
    rfl
  · have out : m.nodes ∉ cells 0 := fun mem => Nat.lt_irrefl _ (inv.old 0 _ mem)
    have same : (cells 0).map (Function.update m.t m.nodes (l.length + 1)) = (cells 0).map m.t := by
      refine List.map_congr_left fun n mem => Function.update_of_ne ?_ _ _
      rintro rfl
      exact out mem
    rw [Function.update_self, child]
    change (cells 0 ++ [m.nodes]).map (Function.update m.t m.nodes (l.length + 1)) = _
    rw [List.map_append, same, kids, List.map_singleton, Function.update_self, List.length_append,
      List.length_singleton, List.range'_1_concat, Nat.add_comm 1]
  · rw [testi', List.set_cons_zero] at set
    rw [Heap.classe, testi'] at cls
    cases o with
    | paragrafo testo => cases cls
    | capitolo c' => exact ⟨c', set⟩
    | libro titolo c' => cases cls

/-- The events build that chapter. -/
lemma built (l : List Stringa) : ∃ m, run .empty (capitoloDi l) = some m ∧ CapitoloDi m l := by
  induction l using List.reverseRecOn with
  | nil =>
    have inv := Inv.empty.new (o := .capitolo .vuoto) fun c list => (Option.some.inj list).symm
    exact ⟨_, rfl, ⟨_, inv, rfl⟩, _, rfl⟩
  | append_singleton l testo ih =>
    obtain ⟨m, built, cap⟩ := ih
    obtain ⟨m', next, cap'⟩ := cap.aggiungi testo
    refine ⟨m', ?_, cap'⟩
    have split : capitoloDi (l ++ [testo]) = capitoloDi l ++ [.paragrafo testo, .aggiungi 0 (l.length + 1)] := by
      rw [capitoloDi, List.zipIdx_append, List.flatMap_append, Nat.zero_add]
      rfl
    rw [run] at built next
    rw [split, run, List.foldlM_append, built]
    exact next

/-- The chapter has a list of children. -/
lemma exists_contenitore (cap : CapitoloDi m l) : ∃ c, m.contenitore 0 = some c := by
  obtain ⟨c, testi⟩ := cap.testi
  refine ⟨c, ?_⟩
  rw [Heap.contenitore, testi]
  rfl

/-- The paragraph with the number `i + 1`. -/
lemma paragrafo {i : Nat} (cap : CapitoloDi m l) (get : l[i]? = some testo) :
    m.testi[i + 1]? = some (.paragrafo testo) := by
  obtain ⟨c, testi⟩ := cap.testi
  rw [testi, List.getElem?_cons_succ, List.getElem?_map, get]
  rfl

/-- The paths lead to the paragraphs, by their numbers. -/
lemma leads_iff (cap : CapitoloDi m l) : Leads m 0 path testo ↔ ∃ i, path = [i + 1] ∧ l[i]? = some testo := by
  obtain ⟨cells, inv, kids⟩ := cap.inv
  obtain ⟨c, cont⟩ := cap.exists_contenitore
  rw [leads_contenitore cont (inv.chain 0 c cont).1]
  have child {i n : Nat} (get : (cells 0)[i]? = some n) : i < l.length ∧ m.t n = i + 1 := by
    have get' : (List.range' 1 l.length)[i]? = some (m.t n) := by
      rw [← kids, List.getElem?_map, get]
      rfl
    obtain ⟨lt, eq⟩ := List.getElem?_eq_some_iff.1 get'
    rw [List.length_range'] at lt
    rw [List.getElem_range', Nat.one_mul, Nat.add_comm] at eq
    exact ⟨lt, eq.symm⟩
  constructor
  · rintro ⟨i, n, path', get, rfl, below⟩
    obtain ⟨lt, eq⟩ := child get
    have text := List.getElem?_eq_getElem lt
    rw [eq, leads_paragrafo (cap.paragrafo text)] at below
    obtain ⟨rfl, rfl⟩ := below
    exact ⟨i, rfl, text⟩
  · rintro ⟨i, rfl, text⟩
    have length := congrArg List.length kids
    rw [List.length_map, List.length_range'] at length
    have lt : i < (cells 0).length := by
      rw [length]
      exact (List.getElem?_eq_some_iff.1 text).1
    have get := List.getElem?_eq_getElem lt
    refine ⟨i, _, [], get, rfl, ?_⟩
    rw [(child get).2]
    exact .qui (cap.paragrafo text)

/-- The chapter and its paragraphs are a tree. -/
lemma albero (cap : CapitoloDi m l) : Albero m 0 := by
  obtain ⟨cells, inv, kids⟩ := cap.inv
  refine .intro _ fun u figlio => .intro _ fun v below => ?_
  obtain ⟨n, mem, rfl⟩ := inv.figlio_iff.1 figlio
  have number : m.t n ∈ List.range' 1 l.length := kids ▸ List.mem_map_of_mem mem
  obtain ⟨i, lt, eq⟩ := List.mem_range'.1 number
  rw [Nat.one_mul, Nat.add_comm] at eq
  -- a paragraph has no children
  obtain ⟨c, ns, k, cont, -⟩ := below
  rw [Heap.contenitore, eq, cap.paragrafo (List.getElem?_eq_getElem lt)] at cont
  cases cont

/-- The string `a` is looked for in a chapter with `n` empty paragraphs before the one that has it. -/
lemma trova_ultimo {n : Nat} (cap : CapitoloDi m (List.replicate n [] ++ [[97]])) :
    ∃ c r, m.contenitore 0 = some c ∧ Termina m 0 [97] r ∧ r = percorso [(n + 1) % 2 ^ 32] 1 1 ∧
      (Risponde m 0 [97] r ↔ n + 1 < 2 ^ 32) := by
  obtain ⟨cells, inv, -⟩ := cap.inv
  obtain ⟨c, cont⟩ := cap.exists_contenitore
  obtain ⟨r, ends, ris⟩ := trova_risolve inv.ordinato (List.cons_ne_nil 97 []) cap.albero (Heap.lt_of_contenitore cont)
  have last : Leads m 0 [n + 1] [97] := by
    refine cap.leads_iff.2 ⟨n, rfl, ?_⟩
    rw [List.getElem?_append_right (List.length_replicate ▸ Nat.le_refl n), List.length_replicate, Nat.sub_self]
    rfl
  have first : Primo m 0 [97] [n + 1] [97] := by
    refine ⟨last, ⟨0, rfl⟩, fun path' testo' leads has => ?_⟩
    obtain ⟨i, rfl, get⟩ := cap.leads_iff.1 leads
    obtain lt | le := Nat.lt_or_ge i n
    · rw [List.getElem?_append_left (List.length_replicate.symm ▸ lt), List.getElem?_replicate_of_lt lt] at get
      cases get
      obtain ⟨j, here⟩ := has
      rw [Occorre, List.drop_nil] at here
      cases here
    · have lt := (List.getElem?_eq_some_iff.1 get).1
      rw [List.length_append, List.length_replicate, List.length_singleton] at lt
      rw [Nat.le_antisymm (Nat.lt_succ_iff.1 lt) le]
      exact .inl rfl
  have only {path : List Nat} {testo : Stringa} (other : Primo m 0 [97] path testo) :
      path = [n + 1] ∧ testo = [97] := by
    have same := other.unique first
    subst same
    obtain ⟨i, eq, get⟩ := cap.leads_iff.1 other.leads
    obtain ⟨j, eq', get'⟩ := cap.leads_iff.1 last
    cases eq
    cases eq'
    exact ⟨rfl, Option.some.inj (get.symm.trans get')⟩
  refine ⟨c, r, cont, ends, ?_, (risponde_iff (List.cons_ne_nil 97 []) cont ris).trans ⟨fun fit => ?_, fun lt => ?_⟩⟩
  · rcases ris with ⟨-, none⟩ | ⟨path, testo, start, other, at_, rfl⟩
    · exact absurd ⟨0, rfl⟩ (none _ _ last)
    · obtain ⟨rfl, rfl⟩ := only other
      have zero : find [97] [97] = some 0 := by decide
      cases zero.symm.trans at_
      rfl
  · exact fit _ _ first _ List.mem_cons_self
  · intro path testo other i mem
    rw [(only other).1, List.mem_singleton] at mem
    rwa [mem]

end CapitoloDi

/-- A book is built with a chapter `1`, in which there are the paragraph `b`, a chapter `2` with the paragraph `ba`, and
the paragraph `a`. -/
def libroAnnidato : List Event :=
  [.libro [76], .capitolo, .capitolo, .paragrafo [98], .paragrafo [98, 97], .paragrafo [97],
    .aggiungi 0 1, .aggiungi 1 3, .aggiungi 1 2, .aggiungi 2 4, .aggiungi 1 5]

/-- The string `a` is in two paragraphs of the book, first in the one of the chapter in the chapter. -/
theorem trova_risponde_iff_two : ∃ m c r, run .empty libroAnnidato = some m ∧ m.contenitore 0 = some c ∧
    Albero m 0 ∧ Termina m 0 [97] r ∧ Primo m 0 [97] [1, 2, 1] [98, 97] ∧ Leads m 0 [1, 3] [97] ∧
    Risponde m 0 [97] r := by
  obtain ⟨m, built, c₀, c₁, c₂, cont₀, cont₁, cont₂, chain₀, chain₁, chain₂, kids, par₃, par₄, par₅⟩ :
      ∃ m, run .empty libroAnnidato = some m ∧ ∃ c₀ c₁ c₂, m.contenitore 0 = some c₀ ∧ m.contenitore 1 = some c₁ ∧
        m.contenitore 2 = some c₂ ∧ Chain m.next c₀.elenco [0] ∧ Chain m.next c₁.elenco [1, 2, 4] ∧
        Chain m.next c₂.elenco [3] ∧ (m.t 0 = 1 ∧ m.t 1 = 3 ∧ m.t 2 = 2 ∧ m.t 3 = 4 ∧ m.t 4 = 5) ∧
        m.testi[3]? = some (.paragrafo [98]) ∧ m.testi[4]? = some (.paragrafo [98, 97]) ∧
        m.testi[5]? = some (.paragrafo [97]) :=
    ⟨_, rfl, _, _, _, rfl, rfl, rfl, ⟨rfl, rfl⟩, ⟨rfl, rfl, rfl, rfl⟩, ⟨rfl, rfl⟩, ⟨rfl, rfl, rfl, rfl, rfl⟩,
      rfl, rfl, rfl⟩
  obtain ⟨kid₀, kid₁, kid₂, kid₃, kid₄⟩ := kids
  have albero : Albero m 0 := by
    refine albero_of_figli cont₀ chain₀ ?_
    rw [List.forall_mem_singleton, kid₀]
    refine albero_of_figli cont₁ chain₁ ?_
    rw [List.forall_mem_cons, List.forall_mem_cons, List.forall_mem_singleton, kid₁, kid₂, kid₄]
    refine ⟨albero_paragrafo par₃, albero_of_figli cont₂ chain₂ ?_, albero_paragrafo par₅⟩
    rw [List.forall_mem_singleton, kid₃]
    exact albero_paragrafo par₄
  have first : Primo m 0 [97] [1, 2, 1] [98, 97] := by
    have qui : Primo m 4 [97] [] [98, 97] := by
      refine ⟨.qui par₄, ⟨1, by decide⟩, fun path' testo' leads _ => ?_⟩
      exact .inl ((leads_paragrafo par₄).1 leads).1.symm
    refine .giu (i := 0) (n := 0) cont₀ chain₀ rfl (fun k no => absurd no (Nat.not_lt_zero k)) ?_
    rw [kid₀]
    refine .giu (i := 1) (n := 2) cont₁ chain₁ rfl ?_ ?_
    · intro k lt n' get path' testo' leads has
      obtain rfl := Nat.lt_one_iff.1 lt
      cases get
      rw [kid₁] at leads
      rw [((leads_paragrafo par₃).1 leads).2] at has
      exact absurd has ((find_eq_none (List.cons_ne_nil 97 [])).1 rfl)
    · rw [kid₂]
      refine .giu (i := 0) (n := 3) cont₂ chain₂ rfl (fun k no => absurd no (Nat.not_lt_zero k)) ?_
      rw [kid₃]
      exact qui
  have second : Leads m 0 [1, 3] [97] := by
    refine .giu (i := 0) cont₀ chain₀ rfl ?_
    rw [kid₀]
    refine .giu (i := 2) cont₁ chain₁ rfl ?_
    rw [kid₄]
    exact .qui par₅
  obtain ⟨r, ends, iff⟩ := trova_risponde_iff built cont₀ albero (List.cons_ne_nil 97 [])
  refine ⟨m, c₀, r, built, cont₀, albero, ends, first, second, iff.2 fun path testo other i mem => ?_⟩
  rw [other.unique first] at mem
  have small : ∀ i ∈ [1, 2, 1], i < 2 ^ 32 := by decide
  exact small i mem

/-- Behind `2 ^ 32` empty paragraphs the counter begins again, and the answer is `/1/1:1`, the path of an empty one. -/
theorem trova_wraps : ∃ m c r, run .empty (capitoloDi (List.replicate (2 ^ 32) [] ++ [[97]])) = some m ∧
    m.contenitore 0 = some c ∧ Albero m 0 ∧ Termina m 0 [97] r ∧ r = percorso [1] 1 1 ∧ Leads m 0 [1] [] ∧
    ¬ Risponde m 0 [97] r := by
  obtain ⟨m, built, cap⟩ := CapitoloDi.built (List.replicate (2 ^ 32) [] ++ [[97]])
  obtain ⟨c, r, cont, ends, eq, iff⟩ := cap.trova_ultimo
  refine ⟨m, c, r, built, cont, cap.albero, ends, eq, ?_, fun right => absurd (iff.1 right) (by decide)⟩
  refine cap.leads_iff.2 ⟨0, rfl, ?_⟩
  have pos : 0 < 2 ^ 32 := by decide
  rw [List.getElem?_append_left (List.length_replicate.symm ▸ pos), List.getElem?_replicate_of_lt pos]

end PDS.Cpp.Testi
