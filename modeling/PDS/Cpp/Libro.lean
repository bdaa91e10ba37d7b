import Mathlib.Data.UInt
import PDS.Lib.Links
import PDS.Lib.Numeral

/-!
# A book and its chapters

Port of `Malnati/lab2`: a `Libro` has chapters, a `Capitolo` has chapters and paragraphs, and `trova` says where in the
first paragraph with a string the string is. The objects of a program are in one store, in which a pointer to a `Testo`
is a number, and so are the nodes of the lists of their children, as `aggiungi` can be called for an object that has
already been added to another one.

`trova` calls itself for the children of an object, in the order of the list. It does not end where an object is below
itself, which `aggiungi` does not prevent, so that there is fuel for it.
-/

namespace PDS.Cpp.Testi
open Links Numeral

/-- C++ `std::string`. -/
abbrev Stringa := List UInt8

/-- A pointer to a `Testo`. -/
abbrev Ptr := Nat

/-- A pointer to a `Tnode`. -/
abbrev NodePtr := Nat

/-- What an object has from C++ `class Contenitore`. -/
structure Contenitore where
  elenco : Option NodePtr
  coda : Option NodePtr
deriving DecidableEq, Repr

def Contenitore.vuoto : Contenitore := ⟨none, none⟩

/-- The objects, by their class. -/
inductive Testo where
  | paragrafo (testo : Stringa)
  | capitolo (c : Contenitore)
  | libro (titolo : Stringa) (c : Contenitore)
deriving DecidableEq, Repr

def Testo.contenitore : Testo → Option Contenitore
  | .paragrafo _ => none
  | .capitolo c => some c
  | .libro _ c => some c

/-- The class of an object. -/
inductive Classe where
  | paragrafo
  | capitolo
  | libro
deriving DecidableEq, Repr

def Testo.classe : Testo → Classe
  | .paragrafo _ => .paragrafo
  | .capitolo _ => .capitolo
  | .libro .. => .libro

/-- Which children an object can have. -/
def Classe.ammette : Classe → Classe → Bool
  | .paragrafo, _ => false
  | .capitolo, u => u != .libro
  | .libro, u => u == .capitolo

/-- The objects, and the nodes (C++ `Tnode`), of which there are `nodes`. -/
structure Heap where
  testi : List Testo
  nodes : Nat
  t : NodePtr → Ptr
  next : NodePtr → Option NodePtr

namespace Heap

def empty : Heap := ⟨[], 0, fun _ => 0, fun _ => none⟩

/-- The list of children of an object. -/
def contenitore (m : Heap) (t : Ptr) : Option Contenitore := m.testi[t]?.bind Testo.contenitore

def classe (m : Heap) (t : Ptr) : Option Classe := m.testi[t]?.map Testo.classe

/-- `new`, for an object that has been constructed. -/
def new (m : Heap) (o : Testo) : Heap := { m with testi := m.testi ++ [o] }

end Heap

/-- How a call ends that does not return. -/
inductive Errore where
  /-- `throw bad_hierarchy()` -/
  | badHierarchy
  /-- access through a null pointer -/
  | null
deriving DecidableEq, Repr

namespace Heap

/-- C++ `Contenitore::add`. -/
def add (m : Heap) (c : Contenitore) (t : Ptr) : Except Errore (Contenitore × Heap) :=
  let tn := m.nodes
  let m := { m with nodes := tn + 1, t := Function.update m.t tn t, next := Function.update m.next tn none }
  match c.elenco with
  | none => .ok (⟨some tn, some tn⟩, m)
  | some _ =>
    match c.coda with
    | none => .error .null
    | some coda => .ok ({ c with coda := some tn }, { m with next := Function.update m.next coda (some tn) })

/-- C++ `Capitolo::aggiungi` and `Libro::aggiungi`, by the class of the object. -/
def aggiungi (m : Heap) (self t : Ptr) : Except Errore Heap :=
  match m.testi[self]? with
  | some (.capitolo c) =>
    match m.testi[t]? with
    | some (.libro ..) => .error .badHierarchy
    | _ =>
      match m.add c t with
      | .error e => .error e
      | .ok (c, m) => .ok { m with testi := m.testi.set self (.capitolo c) }
  | some (.libro titolo c) =>
    match m.testi[t]? with
    | some (.capitolo _) =>
      match m.add c t with
      | .error e => .error e
      | .ok (c, m) => .ok { m with testi := m.testi.set self (.libro titolo c) }
    | _ => .error .badHierarchy
  | _ => .error .null

end Heap

/-- What a program does with the objects. -/
inductive Event where
  | paragrafo (testo : Stringa)
  | capitolo
  | libro (titolo : Stringa)
  | aggiungi (self t : Ptr)
deriving DecidableEq, Repr

/-- `aggiungi` is a member of the containers, and the exception leaves all objects as they are. -/
def step (m : Heap) : Event → Option Heap
  | .paragrafo testo => some (m.new (.paragrafo testo))
  | .capitolo => some (m.new (.capitolo .vuoto))
  | .libro titolo => some (m.new (.libro titolo .vuoto))
  | .aggiungi self t =>
    if (m.contenitore self).isSome ∧ t < m.testi.length then
      match m.aggiungi self t with
      | .ok m => some m
      | .error .badHierarchy => some m
      | .error .null => none
    else none

def run (m : Heap) (es : List Event) : Option Heap := es.foldlM step m

/-- The string `s` is in `testo` behind the first `i` characters. -/
def Occorre (s testo : Stringa) (i : Nat) : Prop := (testo.drop i).take s.length = s

instance (s testo : Stringa) (i : Nat) : Decidable (Occorre s testo i) :=
  inferInstanceAs (Decidable ((testo.drop i).take s.length = s))

/-- `std::string::find`. -/
def find (s testo : Stringa) : Option Nat := (List.range (testo.length + 1)).find? fun i => Occorre s testo i

/-- `std::to_string`, for unsigned numbers. -/
def stdToString (n : Nat) : Stringa := (numeral 10 n).map fun d => UInt8.ofNat (48 + d)

/-- `'/'` -/
def slash : UInt8 := 47

/-- `':'` -/
def colon : UInt8 := 58

/-- C++ `Paragrafo::trova`; what it prints is at most the length of the text, so that no `size_t` overflows. -/
def trovaParagrafo (testo s : Stringa) : Stringa :=
  match find s testo with
  | some start => slash :: stdToString (start + 1) ++ colon :: stdToString (start + s.length)
  | none => []

/-- The loop of `Contenitore::trova`, from the node `tn`; `pos` is an `unsigned int`. -/
def cerca (m : Heap) (trova : Ptr → Option Stringa) : Nat → Option NodePtr → UInt32 → Option Stringa
  | 0, _, _ => none
  | _ + 1, none, _ => some []
  | fuel + 1, some tn, pos => do
    let res ← trova (m.t tn)
    if res ≠ [] then some (slash :: stdToString pos.toNat ++ res)
    else cerca m trova fuel (m.next tn) (pos + 1)

/-- The virtual `trova`. -/
def Heap.trova (m : Heap) (s : Stringa) : Nat → Ptr → Option Stringa
  | 0, _ => none
  | fuel + 1, t =>
    match m.testi[t]? with
    | none => none
    | some (.paragrafo testo) => some (trovaParagrafo testo s)
    | some (.capitolo c) => cerca m (m.trova s fuel) fuel c.elenco 1
    | some (.libro _ c) => cerca m (m.trova s fuel) fuel c.elenco 1

/-- The path of the child numbers, from 1 on, leads from an object to a paragraph. -/
inductive Leads (m : Heap) : Ptr → List Nat → Stringa → Prop where
  | qui {t testo} (here : m.testi[t]? = some (.paragrafo testo)) : Leads m t [] testo
  | giu {t c ns i n path testo} (cont : m.contenitore t = some c) (chain : Chain m.next c.elenco ns)
    (get : ns[i]? = some n) (below : Leads m (m.t n) path testo) : Leads m t ((i + 1) :: path) testo

/-- The object `u` is a child of `t`. -/
def Figlio (m : Heap) (u t : Ptr) : Prop :=
  ∃ c ns n, m.contenitore t = some c ∧ Chain m.next c.elenco ns ∧ n ∈ ns ∧ m.t n = u

/-- What is below an object is a finite tree. -/
def Albero (m : Heap) (t : Ptr) : Prop := Acc (Figlio m) t

def Contiene (s testo : Stringa) : Prop := ∃ i, Occorre s testo i

/-- No paragraph below `t` has the string. -/
def Senza (m : Heap) (t : Ptr) (s : Stringa) : Prop := ∀ path testo, Leads m t path testo → ¬ Contiene s testo

/-- The first paragraph below `t` with the string. -/
structure Primo (m : Heap) (t : Ptr) (s : Stringa) (path : List Nat) (testo : Stringa) : Prop where
  leads : Leads m t path testo
  contiene : Contiene s testo
  first : ∀ path' testo', Leads m t path' testo' → Contiene s testo' → path = path' ∨ List.Lex (· < ·) path path'

/-- The text `/i1/.../ik/a:b`. -/
def percorso : List Nat → Nat → Nat → Stringa
  | [], a, b => slash :: stdToString a ++ colon :: stdToString b
  | i :: path, a, b => slash :: stdToString i ++ percorso path a b

/-- The answer `r` is right: it is empty when the string is nowhere, and otherwise says in one way where it is first. -/
structure Risponde (m : Heap) (t : Ptr) (s r : Stringa) : Prop where
  empty_iff : r = [] ↔ Senza m t s
  decodes : r ≠ [] → ∃ path a b testo, r = percorso path a b ∧
    (∀ path' a' b', r = percorso path' a' b' → path' = path ∧ a' = a ∧ b' = b) ∧
    path ≠ [] ∧ Primo m t s path testo ∧
    1 ≤ a ∧ Occorre s testo (a - 1) ∧ (∀ i, Occorre s testo i → a - 1 ≤ i) ∧
    b + 1 = a + s.length ∧ (testo.take b).drop (a - 1) = s

end PDS.Cpp.Testi
