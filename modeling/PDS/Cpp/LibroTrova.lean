import PDS.Cpp.Libro
import PDS.Lib.Runs

/-!
# What is found in a book

`trova_risolve` is the run of `trova`, by induction on the tree below an object: the answer is empty, or it has the
numbers of the children on the way to the first paragraph, as they come out of a counter of 32 bits. That answer is
right as long as these numbers fit into the counter, and only then (`risponde_iff`).
-/

namespace PDS.Cpp.Testi
open Links Numeral

section

variable {s testo x y : Stringa} {i n k a b a' b' : Nat} {path path' : List Nat}

/-- A string is where there is room for it. -/
lemma Occorre.le (here : Occorre s testo i) (ne : s ≠ []) : i + s.length ≤ testo.length := by
  have pos := List.length_pos_of_ne_nil ne
  have length := congrArg List.length here
  rw [List.length_take, List.length_drop] at length
  omega

/-- `find` finds the first place. -/
lemma find_eq_some (ne : s ≠ []) : find s testo = some i ↔ Occorre s testo i ∧ ∀ j < i, ¬ Occorre s testo j := by
  rw [find, List.find?_range_eq_some]
  constructor
  · rintro ⟨here, -, first⟩
    exact ⟨of_decide_eq_true here, fun j lt => of_decide_eq_false (by simpa using first j lt)⟩
  · rintro ⟨here, first⟩
    have le := here.le ne
    refine ⟨decide_eq_true here, List.mem_range.2 (by omega), fun j lt => ?_⟩
    simpa using first j lt

/-- `find` finds nothing if the string is nowhere. -/
lemma find_eq_none (ne : s ≠ []) : find s testo = none ↔ ¬ Contiene s testo := by
  rw [find, List.find?_range_eq_none]
  constructor
  · rintro all ⟨i, here⟩
    have le := here.le ne
    have no := all i (by omega)
    rw [decide_eq_true here] at no
    exact absurd no (by decide)
  · intro none i _
    have no : ¬ Occorre s testo i := fun here => none ⟨i, here⟩
    simpa using no

/-- The characters that have been found. -/
lemma Occorre.chars (here : Occorre s testo i) : (testo.take (i + s.length)).drop i = s := by
  rw [List.drop_take, Nat.add_sub_cancel_left]
  exact here

/-- The characters that are not in numbers. -/
def segno (c : UInt8) : Bool := c == slash || c == colon

/-- The digits of a number are no separators. -/
lemma segno_stdToString : ∀ c ∈ stdToString n, segno c = false := by
  intro c mem
  obtain ⟨d, digit, rfl⟩ := List.mem_map.1 mem
  have lt := numeral_lt (by decide) digit
  interval_cases d <;> rfl

/-- The value of the digits of a number. -/
lemma eval_stdToString : eval 10 0 ((stdToString n).map fun c => c.toNat - 48) = n := by
  have back : ∀ d ∈ numeral 10 n, (UInt8.ofNat (48 + d)).toNat - 48 = d := by
    intro d digit
    have lt := numeral_lt (by decide) digit
    interval_cases d <;> rfl
  rw [stdToString, List.map_map]
  exact (congrArg (eval 10 0) ((List.map_congr_left back).trans (List.map_id _))).trans eval_numeral

/-- Different numbers have different digits. -/
lemma stdToString_inj (eq : stdToString n = stdToString k) : n = k := by
  have value := congrArg (fun t : Stringa => eval 10 0 (t.map fun c => c.toNat - 48)) eq
  rwa [eval_stdToString, eval_stdToString] at value

/-- A path begins with a slash. -/
lemma percorso_cons (path : List Nat) (a b : Nat) : ∃ r, percorso path a b = slash :: r := by
  cases path with
  | nil => exact ⟨_, rfl⟩
  | cons i path => exact ⟨_, rfl⟩

/-- A number ends where a separator stands. -/
lemma number_inj {c d : UInt8} (hc : segno c = true) (hd : segno d = true)
    (eq : stdToString n ++ c :: x = stdToString k ++ d :: y) : n = k ∧ c :: x = d :: y := by
  obtain ⟨first, rest⟩ := Runs.solid_append_inj segno_stdToString segno_stdToString hc hd eq
  exact ⟨stdToString_inj first, rest⟩

/-- The answer can be read in one way. -/
lemma percorso_inj (eq : percorso path a b = percorso path' a' b') : path = path' ∧ a = a' ∧ b = b' := by
  induction path generalizing path' with
  | nil =>
    cases path' with
    | nil =>
      obtain ⟨first, rest⟩ := number_inj rfl rfl (List.cons.inj eq).2
      exact ⟨rfl, first, stdToString_inj (List.cons.inj rest).2⟩
    | cons j path' =>
      obtain ⟨r, start⟩ := percorso_cons path' a' b'
      have eq := (List.cons.inj eq).2
      rw [List.append_eq, start] at eq
      obtain ⟨-, rest⟩ := number_inj rfl rfl eq
      exact absurd (List.cons.inj rest).1 (by decide)
  | cons i path ih =>
    obtain ⟨r, start⟩ := percorso_cons path a b
    cases path' with
    | nil =>
      have eq := (List.cons.inj eq).2
      rw [List.append_eq, start] at eq
      obtain ⟨-, rest⟩ := number_inj rfl rfl eq
      exact absurd (List.cons.inj rest).1 (by decide)
    | cons j path' =>
      obtain ⟨r', start'⟩ := percorso_cons path' a' b'
      have eq := (List.cons.inj eq).2
      rw [List.append_eq, start, start'] at eq
      obtain ⟨rfl, rest⟩ := number_inj rfl rfl eq
      rw [← start, ← start'] at rest
      obtain ⟨rfl, same⟩ := ih rest
      exact ⟨rfl, same⟩

end

section

variable {m : Heap} {t : Ptr} {c : Contenitore} {s r testo : Stringa} {path : List Nat} {h : Option NodePtr}
  {ns : List NodePtr} {fuel : Nat}

/-- An object with children is in the store. -/
lemma Heap.lt_of_contenitore (cont : m.contenitore t = some c) : t < m.testi.length := by
  obtain ⟨o, get, -⟩ := Option.bind_eq_some_iff.1 cont
  exact (List.getElem?_eq_some_iff.1 get).1

/-- A path from an object leads through one of its children. -/
lemma leads_contenitore (cont : m.contenitore t = some c) (chain : Chain m.next c.elenco ns) :
    Leads m t path testo ↔ ∃ i n path', ns[i]? = some n ∧ path = (i + 1) :: path' ∧ Leads m (m.t n) path' testo := by
  constructor
  · intro leads
    cases leads with
    | qui here =>
      rw [Heap.contenitore, here] at cont
      cases cont
    | giu cont' chain' get below =>
      cases cont.symm.trans cont'
      cases chain'.unique chain
      exact ⟨_, _, _, get, rfl, below⟩
  · rintro ⟨i, n, path', get, rfl, below⟩
    exact .giu cont chain get below

/-- A path from a paragraph is empty. -/
lemma leads_paragrafo (here : m.testi[t]? = some (.paragrafo testo)) {testo' : Stringa} :
    Leads m t path testo' ↔ path = [] ∧ testo' = testo := by
  constructor
  · intro leads
    cases leads with
    | qui here' =>
      cases here.symm.trans here'
      exact ⟨rfl, rfl⟩
    | giu cont =>
      rw [Heap.contenitore, here] at cont
      cases cont
  · rintro ⟨rfl, rfl⟩
    exact .qui here

/-- The first child with the string has the first paragraph. -/
lemma Primo.giu {i n : Nat} (cont : m.contenitore t = some c) (chain : Chain m.next c.elenco ns)
    (get : ns[i]? = some n) (before : ∀ k < i, ∀ n', ns[k]? = some n' → Senza m (m.t n') s)
    (first : Primo m (m.t n) s path testo) : Primo m t s ((i + 1) :: path) testo := by
  refine ⟨.giu cont chain get first.leads, first.contiene, fun q testo' leads has => ?_⟩
  obtain ⟨k, n', q', get', rfl, below⟩ := (leads_contenitore cont chain).1 leads
  obtain lt | rfl | gt := Nat.lt_trichotomy k i
  · exact absurd has (before k lt n' get' q' testo' below)
  · cases get.symm.trans get'
    cases first.first q' testo' below has with
    | inl same => exact .inl (congrArg (_ :: ·) same)
    | inr less => exact .inr (.cons less)
  · exact .inr (.rel (Nat.succ_lt_succ gt))

/-- The first paragraph is one. -/
lemma Primo.unique {path' : List Nat} {testo' : Stringa} (first : Primo m t s path testo)
    (first' : Primo m t s path' testo') : path = path' := by
  cases first.first path' testo' first'.leads first'.contiene with
  | inl same => exact same
  | inr less =>
    cases first'.first path testo first.leads first.contiene with
    | inl same => exact same.symm
    | inr less' => exact absurd less' (asymm less)

/-- What `trova` answers for `t`. -/
def Risolve (m : Heap) (t : Ptr) (s r : Stringa) : Prop :=
  (r = [] ∧ Senza m t s) ∨ ∃ path testo start, Primo m t s path testo ∧ find s testo = some start ∧
    r = percorso (path.map (· % 2 ^ 32)) (start + 1) (start + s.length)

/-- `trova` ends for `t`. -/
def Termina (m : Heap) (t : Ptr) (s r : Stringa) : Prop := ∃ N, ∀ fuel, N ≤ fuel → m.trova s fuel t = some r

/-- An answer with a path is not empty. -/
lemma percorso_ne_nil {a b : Nat} : percorso path a b ≠ [] := by
  obtain ⟨r, start⟩ := percorso_cons path a b
  rw [start]
  exact List.cons_ne_nil _ _

/-- The search goes on to the next child. -/
lemma cerca_avanti {trova : Ptr → Option Stringa} {n : NodePtr} {pos : UInt32} (res : trova (m.t n) = some []) :
    cerca m trova (fuel + 1) (some n) pos = cerca m trova fuel (m.next n) (pos + 1) := by
  rw [cerca, res, Option.bind_eq_bind, Option.bind_some, if_neg (not_not_intro rfl)]

/-- The search ends with the child that has the string. -/
lemma cerca_trovato {trova : Ptr → Option Stringa} {n : NodePtr} {pos : UInt32} (res : trova (m.t n) = some r)
    (ne : r ≠ []) : cerca m trova (fuel + 1) (some n) pos = some (slash :: stdToString pos.toNat ++ r) := by
  rw [cerca, res, Option.bind_eq_bind, Option.bind_some, if_pos ne]

/-- The loop, from the child with the number `j + 1` on: the induction is on the nodes that are left. -/
lemma cerca_risolve (chain : Chain m.next h ns)
    (each : ∀ n ∈ ns, ∃ r, Termina m (m.t n) s r ∧ Risolve m (m.t n) s r) (j : Nat) :
    ∃ r, (∃ N, ∀ fuel fuel', N ≤ fuel → N ≤ fuel' →
        cerca m (m.trova s fuel) fuel' h (UInt32.ofNat (j + 1)) = some r) ∧
      ((r = [] ∧ ∀ n ∈ ns, Senza m (m.t n) s) ∨
        ∃ i n path testo start, ns[i]? = some n ∧ (∀ k < i, ∀ n', ns[k]? = some n' → Senza m (m.t n') s) ∧
          Primo m (m.t n) s path testo ∧ find s testo = some start ∧
          r = percorso (((j + i + 1) :: path).map (· % 2 ^ 32)) (start + 1) (start + s.length)) := by
  induction ns generalizing h j with
  | nil =>
    have none : h = none := chain
    refine ⟨[], ⟨1, fun fuel fuel' _ le => ?_⟩, .inl ⟨rfl, fun n no => absurd no List.not_mem_nil⟩⟩
    obtain ⟨k, rfl⟩ : ∃ k, fuel' = k + 1 := ⟨fuel' - 1, by omega⟩
    rw [none, cerca]
  | cons n ns ih =>
    obtain ⟨rfl, chain⟩ := chain
    obtain ⟨here, later⟩ := List.forall_mem_cons.1 each
    obtain ⟨r, ⟨N, ends⟩, found⟩ := here
    cases found with
    | inl none =>
      -- the child does not have the string
      obtain ⟨rfl, senza⟩ := none
      obtain ⟨r, ⟨N', loop⟩, found⟩ := ih chain later (j + 1)
      refine ⟨r, ⟨max N (N' + 1), fun fuel fuel' le le' => ?_⟩, ?_⟩
      · obtain ⟨k, rfl⟩ : ∃ k, fuel' = k + 1 := ⟨fuel' - 1, by omega⟩
        have next : UInt32.ofNat (j + 1) + 1 = UInt32.ofNat (j + 1 + 1) := (UInt32.ofNat_add ..).symm
        rw [cerca_avanti (ends fuel (by omega)), next]
        exact loop fuel k (by omega) (by omega)
      · cases found with
        | inl none => exact .inl ⟨none.1, List.forall_mem_cons.2 ⟨senza, none.2⟩⟩
        | inr found =>
          obtain ⟨i, n', path, testo, start, get, before, rest⟩ := found
          refine .inr ⟨i + 1, n', path, testo, start, get, fun k lt n'' get' => ?_, ?_⟩
          · cases k with
            | zero =>
              cases get'
              exact senza
            | succ k => exact before k (by omega) n'' get'
          · rwa [show j + (i + 1) + 1 = j + 1 + i + 1 by omega]
    | inr found =>
      obtain ⟨path, testo, start, first, at_, rfl⟩ := found
      refine ⟨_, ⟨max N 1, fun fuel fuel' le le' => ?_⟩, .inr ⟨0, n, path, testo, start, rfl, ?_, first, at_, rfl⟩⟩
      · obtain ⟨k, rfl⟩ : ∃ k, fuel' = k + 1 := ⟨fuel' - 1, by omega⟩
        rw [cerca_trovato (ends fuel (by omega)) percorso_ne_nil, UInt32.toNat_ofNat']
        rfl
      · exact fun k lt => absurd lt (Nat.not_lt_zero k)

/-- The lists of children end, and hold objects. -/
structure Ordinato (m : Heap) : Prop where
  chain : ∀ t c, m.contenitore t = some c → ∃ ns, Chain m.next c.elenco ns
  valid : ∀ u t, Figlio m u t → u < m.testi.length

/-- The search in an object is one in its children. -/
lemma trova_contenitore (cont : m.contenitore t = some c) :
    m.trova s (fuel + 1) t = cerca m (m.trova s fuel) fuel c.elenco 1 := by
  obtain ⟨o, get, eq⟩ := Option.bind_eq_some_iff.1 cont
  rw [Heap.trova, get]
  cases o with
  | paragrafo testo => cases eq
  | capitolo c' =>
    cases eq
    rfl
  | libro titolo c' =>
    cases eq
    rfl

/-- `trova` ends on every tree. -/
lemma trova_risolve (ord : Ordinato m) (ne : s ≠ []) (albero : Albero m t) (lt : t < m.testi.length) :
    ∃ r, Termina m t s r ∧ Risolve m t s r := by
  induction albero with
  | intro t _ ih =>
    cases cont : m.contenitore t with
    | none =>
      obtain ⟨testo, here⟩ : ∃ testo, m.testi[t]? = some (.paragrafo testo) := by
        rw [Heap.contenitore, List.getElem?_eq_getElem lt] at cont
        cases o : m.testi[t] with
        | paragrafo testo => exact ⟨testo, by rw [List.getElem?_eq_getElem lt, o]⟩
        | capitolo c =>
          rw [o] at cont
          cases cont
        | libro titolo c =>
          rw [o] at cont
          cases cont
      refine ⟨trovaParagrafo testo s, ⟨1, fun fuel le => ?_⟩, ?_⟩
      · obtain ⟨k, rfl⟩ : ∃ k, fuel = k + 1 := ⟨fuel - 1, by omega⟩
        rw [Heap.trova, here]
      · rw [trovaParagrafo]
        cases found : find s testo with
        | none =>
          refine .inl ⟨rfl, fun path testo' leads => ?_⟩
          obtain ⟨-, rfl⟩ := (leads_paragrafo here).1 leads
          exact (find_eq_none ne).1 found
        | some start =>
          refine .inr ⟨[], testo, start, ⟨.qui here, ⟨start, ((find_eq_some ne).1 found).1⟩, ?_⟩, found, rfl⟩
          exact fun path' testo' leads _ => .inl ((leads_paragrafo here).1 leads).1.symm
    | some c =>
      obtain ⟨ns, chain⟩ := ord.chain t c cont
      have each : ∀ n ∈ ns, ∃ r, Termina m (m.t n) s r ∧ Risolve m (m.t n) s r := by
        intro n mem
        have figlio : Figlio m (m.t n) t := ⟨c, ns, n, cont, chain, mem, rfl⟩
        exact ih _ figlio (ord.valid _ _ figlio)
      obtain ⟨r, ⟨N, loop⟩, found⟩ := cerca_risolve chain each 0
      refine ⟨r, ⟨N + 1, fun fuel le => ?_⟩, ?_⟩
      · obtain ⟨k, rfl⟩ : ∃ k, fuel = k + 1 := ⟨fuel - 1, by omega⟩
        rw [trova_contenitore cont]
        exact loop k k (by omega) (by omega)
      · cases found with
        | inl none =>
          refine .inl ⟨none.1, fun path testo leads => ?_⟩
          obtain ⟨i, n, path', get, -, below⟩ := (leads_contenitore cont chain).1 leads
          exact none.2 n (List.mem_of_getElem? get) path' testo below
        | inr found =>
          obtain ⟨i, n, path, testo, start, get, before, first, at_, rfl⟩ := found
          refine .inr ⟨(i + 1) :: path, testo, start, first.giu cont chain get before, at_, ?_⟩
          rw [Nat.zero_add]

/-- The numbers on the way to the first paragraph fit into an `unsigned int`. -/
def Numerabile (m : Heap) (t : Ptr) (s : Stringa) : Prop :=
  ∀ path testo, Primo m t s path testo → ∀ i ∈ path, i < 2 ^ 32

/-- The answer is right exactly when the numbers fit. -/
lemma risponde_iff (ne : s ≠ []) (cont : m.contenitore t = some c) (ris : Risolve m t s r) :
    Risponde m t s r ↔ Numerabile m t s := by
  cases ris with
  | inl none =>
    obtain ⟨rfl, senza⟩ := none
    refine iff_of_true ⟨iff_of_true rfl senza, fun no => absurd rfl no⟩ ?_
    exact fun path testo first => absurd first.contiene (senza path testo first.leads)
  | inr found =>
    obtain ⟨path, testo, start, first, at_, rfl⟩ := found
    constructor
    · intro right path' testo' first' i mem
      obtain ⟨q, a, b, testo'', eq, -, -, first'', -⟩ := right.decodes percorso_ne_nil
      obtain ⟨same, -⟩ := percorso_inj eq
      -- the path that is read is the one to the first paragraph
      rw [first''.unique first] at same
      rw [first'.unique first] at mem
      have self : i % 2 ^ 32 = i := List.map_inj_left.1 (same.trans (List.map_id path).symm) i mem
      rw [← self]
      exact Nat.mod_lt _ (by decide)
    · intro fit
      have same : path.map (· % 2 ^ 32) = path :=
        (List.map_congr_left fun i mem => Nat.mod_eq_of_lt (fit path testo first i mem)).trans (List.map_id _)
      obtain ⟨here, before⟩ := (find_eq_some ne).1 at_
      rw [same]
      refine ⟨iff_of_false percorso_ne_nil fun senza => senza path testo first.leads first.contiene, fun _ => ?_⟩
      refine ⟨path, start + 1, start + s.length, testo, rfl, ?_, ?_, first, by omega, here, ?_, by omega, here.chars⟩
      · intro path' a' b' eq
        obtain ⟨rfl, rfl, rfl⟩ := percorso_inj eq
        exact ⟨rfl, rfl, rfl⟩
      · rintro rfl
        cases first.leads with
        | qui here =>
          rw [Heap.contenitore, here] at cont
          cases cont
      · intro i at_'
        rw [Nat.add_sub_cancel]
        exact Nat.not_lt.1 fun lt => before i lt at_'

end

end PDS.Cpp.Testi
