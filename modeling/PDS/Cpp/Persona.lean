import PDS.Cpp.ElencoRun

/-!
# Persons in memory

Port of `Malnati/lab1/Persona.cpp`, with the memory for the names: a `Persona` points to two arrays of characters, and
frees them. As for nodes, an address is not given out twice.

`Chars.Holds` says that pointers have their names, each in an array of its own; `copyName`, which every constructor calls
that sets names, gives no others (`Chars.Owns.of_copyName`). An assignment frees the names of its target before it copies
those of its source, and does not ask whether the two are the same object (`Chars.Owns.assign_self`).
-/

namespace PDS.Cpp

/-- Arrays of characters; addresses from `brk` on have not been given out yet. -/
structure Chars where
  arrays : Nat → Option (List UInt8)
  brk : Nat

namespace Chars

/-- The array that a pointer points to. -/
def read (c : Chars) : Option Nat → Except Fault (List UInt8)
  | none => .error .null
  | some a =>
    match c.arrays a with
    | none => .error .freed
    | some s => .ok s

/-- `int ln = strlen(s)`, for which `ln + 1` is an `int` too. -/
def strlen (c : Chars) (s : Option Nat) : Except Fault Nat := do
  let s ← c.read s
  if 0 ∉ s then .error .freed
  else if 2 ^ 31 - 1 ≤ (s.takeWhile (· ≠ 0)).length then .error .overflow
  else .ok (s.takeWhile (· ≠ 0)).length

/-- `new char[n]`. -/
def new (c : Chars) (n : Nat) : Nat × Chars :=
  (c.brk, { arrays := Function.update c.arrays c.brk (some (List.replicate n 0)), brk := c.brk + 1 })

/-- `std::copy(s, s + n, d)`. -/
def copy (c : Chars) (s : Option Nat) (n : Nat) (d : Nat) : Except Fault Chars := do
  let s ← c.read s
  let t ← c.read (some d)
  if s.length < n ∨ t.length < n then .error .freed
  else .ok { c with arrays := Function.update c.arrays d (some (s.take n ++ t.drop n)) }

/-- `delete[] s`. -/
def delete (c : Chars) : Option Nat → Except Fault Chars
  | none => .ok c
  | some a => do
    let _ ← c.read (some a)
    .ok { c with arrays := Function.update c.arrays a none }

end Chars

/-- The fields of C++ `Persona`. -/
structure PersonaObj where
  nome : Option Nat
  cognome : Option Nat
deriving DecidableEq, Repr

namespace PersonaObj

/-- `Persona::Persona()`. -/
def empty : PersonaObj := ⟨none, none⟩

/-- `Persona::copyName`; the results are the fields of `*this`. -/
def copyName (c : Chars) (nome cognome : Option Nat) : Except Fault (PersonaObj × Chars) := do
  let ln ← c.strlen nome
  let lc ← c.strlen cognome
  let (thisNome, c) := c.new (ln + 1)
  let (thisCognome, c) := c.new (lc + 1)
  let c ← c.copy nome (ln + 1) thisNome
  let c ← c.copy cognome (lc + 1) thisCognome
  .ok (⟨some thisNome, some thisCognome⟩, c)

/-- `Persona::~Persona`. -/
def destroy (c : Chars) (this : PersonaObj) : Except Fault Chars := do
  let c ← c.delete this.nome
  c.delete this.cognome

/-- `Persona::operator=`. The fields of `p` are the same behind the deletions, also if it is `*this`. -/
def assign (c : Chars) (this p : PersonaObj) : Except Fault (PersonaObj × Chars) := do
  let c ← c.delete this.nome
  let c ← c.delete this.cognome
  copyName c p.nome p.cognome

end PersonaObj

/-- An assignment between the objects of a program. -/
def assignPersona (c : Chars) (objs : Nat → PersonaObj) (i j : Nat) : Except Fault ((Nat → PersonaObj) × Chars) := do
  let (p, c) ← (objs i).assign c (objs j)
  .ok (Function.update objs i p, c)

namespace PersonaObj

/-- The names are freed as by the destructor. -/
lemma assign_eq (c : Chars) (this p : PersonaObj) :
    this.assign c p = (this.destroy c >>= fun c => copyName c p.nome p.cognome) := (bind_assoc _ _ _).symm

end PersonaObj

/-- The pointer points to the name, or there is none. The length of a name is an `int`. -/
inductive IsName (c : Chars) : Option Nat → Option (List UInt8) → Prop where
  | null : IsName c none none
  | name {a : Nat} {s : List UInt8} :
    c.arrays a = some (s ++ [0]) → 0 ∉ s → s.length < 2 ^ 31 - 1 → IsName c (some a) (some s)

namespace Chars

variable {κ : Type} {c c' : Chars} {ptr : κ → Option Nat} {names : κ → Option (List UInt8)} {f g : κ} {a b : Nat}
  {s t : List UInt8} {p : Option Nat} {n : Option (List UInt8)}

/-- A name in a new array. -/
def put (c : Chars) (s : List UInt8) : Chars := ⟨Function.update c.arrays c.brk (some (s ++ [0])), c.brk + 1⟩

/-- Reads a live array. -/
lemma read_eq (at_ : c.arrays a = some s) : c.read (some a) = .ok s := by
  rw [read, at_]

/-- A string ends at its terminator. -/
lemma takeWhile_name (zero : 0 ∉ s) (rest : List UInt8) : (s ++ 0 :: rest).takeWhile (· ≠ 0) = s := by
  have nonzero : ∀ x ∈ s, decide (x ≠ 0) = true := by
    intro x mem
    refine decide_eq_true ?_
    rintro rfl
    exact zero mem
  rw [List.takeWhile_append_of_pos nonzero]
  exact List.append_nil s

/-- The length of a name. -/
lemma strlen_eq {rest : List UInt8} (at_ : c.arrays a = some (s ++ 0 :: rest)) (zero : 0 ∉ s)
    (short : s.length < 2 ^ 31 - 1) : c.strlen (some a) = .ok s.length := by
  have there : 0 ∈ s ++ 0 :: rest := List.mem_append_right s List.mem_cons_self
  rw [strlen, read_eq at_, ok_bind, if_neg (not_not_intro there), takeWhile_name zero, if_neg short.not_ge]

/-- What is measured is a string of an array. -/
lemma strlen_ok {k : Nat} (run : c.strlen p = .ok k) : ∃ a s rest,
    p = some a ∧ c.arrays a = some (s ++ 0 :: rest) ∧ 0 ∉ s ∧ s.length < 2 ^ 31 - 1 := by
  cases p with
  | none => cases run
  | some a =>
    rw [strlen, read] at run
    cases at_ : c.arrays a with
    | none =>
      rw [at_] at run
      cases run
    | some u =>
      rw [at_] at run
      dsimp only at run
      rw [ok_bind] at run
      split_ifs at run with there long
      obtain ⟨s, rest, rfl, zero⟩ := List.eq_append_cons_of_mem there
      rw [takeWhile_name zero] at long
      exact ⟨a, s, rest, rfl, at_, zero, Nat.lt_of_not_le long⟩

/-- The beginning of an array is copied to an array of that size. -/
lemma copy_eq {rest : List UInt8} (from_ : c.arrays a = some (s ++ rest)) (to_ : c.arrays b = some t)
    (len : t.length = s.length) :
    c.copy (some a) s.length b = .ok { c with arrays := Function.update c.arrays b (some s) } := by
  have fits : ¬ ((s ++ rest).length < s.length ∨ t.length < s.length) := by
    rw [List.length_append]
    omega
  rw [copy, read_eq from_, ok_bind, read_eq to_, ok_bind, if_neg fits, List.take_left, List.drop_of_length_le len.le,
    List.append_nil]

end Chars

/-- A name only depends on its own array. -/
lemma IsName.frame {c c' : Chars} {p : Option Nat} {n : Option (List UInt8)} (is : IsName c p n)
    (same : ∀ a, p = some a → c'.arrays a = c.arrays a) : IsName c' p n := by
  cases is with
  | null => exact .null
  | name at_ zero short => exact .name ((same _ rfl).trans at_) zero short

/-- Where a name is. -/
lemma IsName.of_ne_none {c : Chars} {p : Option Nat} {n : Option (List UInt8)} (is : IsName c p n) (there : n ≠ none) :
    ∃ a s, p = some a ∧ n = some s ∧ c.arrays a = some (s ++ [0]) ∧ 0 ∉ s ∧ s.length < 2 ^ 31 - 1 := by
  cases is with
  | null => exact absurd rfl there
  | name at_ zero short => exact ⟨_, _, rfl, rfl, at_, zero, short⟩

/-- Both names are copied to new arrays. -/
lemma PersonaObj.copyName_eq {c : Chars} {a b : Nat} {s t rest rest' : List UInt8}
    (at_ : c.arrays a = some (s ++ 0 :: rest)) (at_' : c.arrays b = some (t ++ 0 :: rest')) (zero : 0 ∉ s) (zero' : 0 ∉ t)
    (short : s.length < 2 ^ 31 - 1)
    (short' : t.length < 2 ^ 31 - 1) (lt : a < c.brk) (lt' : b < c.brk) :
    copyName c (some a) (some b) = .ok (⟨some c.brk, some (c.brk + 1)⟩, (c.put s).put t) := by
  have len : (s ++ [0]).length = s.length + 1 := List.length_append
  have len' : (t ++ [0]).length = t.length + 1 := List.length_append
  have ne : c.brk ≠ c.brk + 1 := (Nat.lt_succ_self _).ne
  have old {x : Nat} (lt : x < c.brk) (o o' : Option (List UInt8)) :
      Function.update (Function.update c.arrays c.brk o) (c.brk + 1) o' x = c.arrays x := by
    rw [Function.update_of_ne (Nat.lt_succ_of_lt lt).ne, Function.update_of_ne lt.ne]
  rw [copyName, Chars.strlen_eq at_ zero short, ok_bind, Chars.strlen_eq at_' zero' short', ok_bind]
  rw [List.append_cons] at at_ at_'
  dsimp only [Chars.new]
  rw [← len, ← len']
  have first := Chars.copy_eq (c := ⟨Function.update (Function.update c.arrays c.brk
    (some (List.replicate (s ++ [0]).length 0))) (c.brk + 1) (some (List.replicate (t ++ [0]).length 0)), c.brk + 1 + 1⟩)
    (b := c.brk) ((old lt _ _).trans at_) ((Function.update_of_ne ne ..).trans (Function.update_self ..))
    List.length_replicate
  rw [first, ok_bind, Function.update_comm ne.symm, Function.update_idem]
  have second := Chars.copy_eq (c := ⟨Function.update (Function.update c.arrays c.brk (some (s ++ [0]))) (c.brk + 1)
    (some (List.replicate (t ++ [0]).length 0)), c.brk + 1 + 1⟩) (b := c.brk + 1) ((old lt' _ _).trans at_')
    (Function.update_self ..) List.length_replicate
  rw [second, ok_bind, Function.update_idem]
  rfl

namespace Chars

/-- The pointers have their names, and each an array of its own. -/
structure Holds {κ : Type} (c : Chars) (ptr : κ → Option Nat) (names : κ → Option (List UInt8)) : Prop where
  isName : ∀ f, IsName c (ptr f) (names f)
  apart : ∀ {f g a}, ptr f = some a → ptr g = some a → f = g
  bound : ∀ {f a}, ptr f = some a → a < c.brk

variable {κ : Type} [DecidableEq κ] {c c' : Chars} {ptr : κ → Option Nat} {names : κ → Option (List UInt8)} {f g : κ}
  {s : List UInt8}

/-- A name is given up. -/
lemma Holds.drop (h : c.Holds ptr names) (same : ∀ a, ptr f ≠ some a → c'.arrays a = c.arrays a) (brk : c'.brk = c.brk) :
    c'.Holds (Function.update ptr f none) (Function.update names f none) := by
  have kept {g : κ} {a : Nat} (eq : Function.update ptr f none g = some a) : g ≠ f ∧ ptr g = some a := by
    by_cases at_ : g = f
    · rw [at_, Function.update_self] at eq
      cases eq
    · exact ⟨at_, Function.update_of_ne at_ none ptr ▸ eq⟩
  refine ⟨?_, ?_, ?_⟩
  · intro g
    by_cases at_ : g = f
    · rw [at_, Function.update_self, Function.update_self]
      exact .null
    · rw [Function.update_of_ne at_, Function.update_of_ne at_]
      refine (h.isName g).frame fun a eq => same a ?_
      exact fun eq' => at_ (h.apart eq eq')
  · intro g g' a eq eq'
    exact h.apart (kept eq).2 (kept eq').2
  · intro g a eq
    exact (h.bound (kept eq).2).trans_eq brk.symm

/-- `delete[]` of a name. -/
lemma Holds.delete (h : c.Holds ptr names) (f : κ) :
    ∃ c', c.delete (ptr f) = .ok c' ∧ c'.Holds (Function.update ptr f none) (Function.update names f none) ∧
      (∀ a, ptr f = some a → c'.arrays a = none) ∧ ∀ a, c.arrays a = none → c'.arrays a = none := by
  have is := h.isName f
  cases eq : ptr f with
  | none => exact ⟨c, rfl, h.drop (fun _ _ => rfl) rfl, nofun, fun _ gone => gone⟩
  | some a =>
    rw [eq] at is
    generalize names f = n at is
    cases is with
    | name at_ =>
      refine ⟨{ c with arrays := Function.update c.arrays a none }, ?_, h.drop ?_ rfl, ?_, ?_⟩
      · rw [Chars.delete, read_eq at_, ok_bind]
      · intro b ne
        refine Function.update_of_ne ?_ _ _
        rintro rfl
        exact ne eq
      · intro b same
        cases same
        exact Function.update_self ..
      · intro b gone
        by_cases same : b = a
        · exact same ▸ Function.update_self ..
        · exact (Function.update_of_ne same ..).trans gone

/-- A new name for a pointer that had none. -/
lemma Holds.add (h : c.Holds ptr names) (f : κ) (zero : 0 ∉ s) (short : s.length < 2 ^ 31 - 1) :
    (c.put s).Holds (Function.update ptr f (some c.brk)) (Function.update names f (some s)) := by
  have kept {g : κ} {a : Nat} (eq : Function.update ptr f (some c.brk) g = some a) :
      g = f ∧ a = c.brk ∨ g ≠ f ∧ ptr g = some a := by
    by_cases at_ : g = f
    · rw [at_, Function.update_self] at eq
      exact .inl ⟨at_, (Option.some.inj eq).symm⟩
    · exact .inr ⟨at_, Function.update_of_ne at_ (some c.brk) ptr ▸ eq⟩
  refine ⟨?_, ?_, ?_⟩
  · intro g
    by_cases at_ : g = f
    · rw [at_, Function.update_self, Function.update_self]
      exact .name (Function.update_self ..) zero short
    · rw [Function.update_of_ne at_, Function.update_of_ne at_]
      exact (h.isName g).frame fun a eq => Function.update_of_ne (h.bound eq).ne _ _
  · intro g g' a eq eq'
    rcases kept eq with ⟨at_, new⟩ | ⟨-, old⟩
    · rcases kept eq' with ⟨at_', -⟩ | ⟨-, old'⟩
      · exact at_.trans at_'.symm
      · exact absurd (h.bound old') (new ▸ lt_irrefl _)
    · rcases kept eq' with ⟨-, new⟩ | ⟨-, old'⟩
      · exact absurd (h.bound old) (new ▸ lt_irrefl _)
      · exact h.apart old old'
  · intro g a eq
    rcases kept eq with ⟨-, new⟩ | ⟨-, old⟩
    · exact new ▸ Nat.lt_succ_self _
    · exact Nat.lt_succ_of_lt (h.bound old)

end Chars

/-- A field of a `Persona`. -/
inductive PersonaField where
  | nome
  | cognome
deriving DecidableEq

/-- The pointer in a field. -/
def PersonaObj.get (p : PersonaObj) : PersonaField → Option Nat
  | .nome => p.nome
  | .cognome => p.cognome

/-- The name of a field. -/
def Persona.get (p : Persona) : PersonaField → Option (List UInt8)
  | .nome => p.nome
  | .cognome => p.cognome

/-- The objects have the names of the persons, each in an array of its own. -/
def Chars.Owns {ι : Type} (c : Chars) (objs : ι → PersonaObj) (persons : ι → Persona) : Prop :=
  c.Holds (fun f : ι × PersonaField => (objs f.1).get f.2) fun f => (persons f.1).get f.2

/-- Both fields of an object are set. -/
lemma uncurry_update {ι α β : Type} [DecidableEq ι] (objs : ι → α) (get : α → PersonaField → β) (i : ι) (p : α) :
    (fun f : ι × PersonaField => get (Function.update objs i p f.1) f.2) =
      Function.update (Function.update (fun f => get (objs f.1) f.2) (i, .nome) (get p .nome)) (i, .cognome)
        (get p .cognome) := by
  funext ⟨j, f⟩
  by_cases same : j = i
  · subst same
    cases f <;> simp
  · simp [same]

namespace Chars.Owns
open PersonaObj

variable {ι : Type} [DecidableEq ι] {c c' : Chars} {objs : ι → PersonaObj} {persons : ι → Persona} {i j : ι}

/-- The names of an object are freed. -/
lemma destroy (own : c.Owns objs persons) (i : ι) :
    ∃ c', (objs i).destroy c = .ok c' ∧ c'.Owns (Function.update objs i .empty) (Function.update persons i .empty) ∧
      ∀ a, (objs i).nome = some a → c'.arrays a = none := by
  obtain ⟨c₁, run₁, own₁, gone, -⟩ := Holds.delete own (i, .nome)
  obtain ⟨c₂, run₂, own₂, -, gone₂⟩ := Holds.delete own₁ (i, .cognome)
  have cognome : Function.update (fun f : ι × PersonaField => (objs f.1).get f.2) (i, .nome) none (i, .cognome) =
      (objs i).cognome := Function.update_of_ne (fun same => by cases same) _ _
  refine ⟨c₂, ?_, ?_, fun a eq => gone₂ a (gone a eq)⟩
  · rw [PersonaObj.destroy, ← cognome]
    exact (congrArg (· >>= _) run₁).trans run₂
  · rw [Owns, uncurry_update objs PersonaObj.get, uncurry_update persons Persona.get]
    exact own₂

/-- An object gets two names. -/
lemma put (own : c.Owns objs persons) (i : ι) {s t : List UInt8} (zero : 0 ∉ s) (zero' : 0 ∉ t)
    (short : s.length < 2 ^ 31 - 1) (short' : t.length < 2 ^ 31 - 1) :
    ((c.put s).put t).Owns (Function.update objs i ⟨some c.brk, some (c.brk + 1)⟩)
      (Function.update persons i ⟨some s, some t⟩) := by
  have own₁ := Holds.add own (i, .nome) zero short
  have own₂ := own₁.add (i, .cognome) zero' short'
  rw [Owns, uncurry_update objs PersonaObj.get, uncurry_update persons Persona.get]
  exact own₂

/-- An object gets copies of the names of another one. -/
lemma copyName (own : c.Owns objs persons) (i : ι) (named : (persons j).Named) :
    ∃ p c', PersonaObj.copyName c (objs j).nome (objs j).cognome = .ok (p, c') ∧
      c'.Owns (Function.update objs i p) (Function.update persons i (persons j)) := by
  obtain ⟨a, s, nome, nome', at_, zero, short⟩ := (own.isName (j, .nome)).of_ne_none named.1
  obtain ⟨b, t, cognome, cognome', at_', zero', short'⟩ := (own.isName (j, .cognome)).of_ne_none named.2
  have run := copyName_eq at_ at_' zero zero' short short' (own.bound nome) (own.bound cognome)
  have person : persons j = ⟨some s, some t⟩ := by
    rw [← nome', ← cognome']
    rfl
  rw [← nome, ← cognome] at run
  rw [person]
  exact ⟨_, _, run, own.put i zero zero' short short'⟩

/-- Whatever an object is made from, it has its names, in arrays of its own. -/
lemma of_copyName (own : c.Owns objs persons) (i : ι) {nome cognome : Option Nat} {p : PersonaObj}
    (bound : ∀ a, nome = some a ∨ cognome = some a → a < c.brk) (run : PersonaObj.copyName c nome cognome = .ok (p, c')) :
    ∃ s t, c'.Owns (Function.update objs i p) (Function.update persons i ⟨some s, some t⟩) := by
  have first := run
  rw [PersonaObj.copyName] at first
  obtain ⟨ln, len, first⟩ := bind_ok_iff.1 first
  obtain ⟨lc, len', -⟩ := bind_ok_iff.1 first
  obtain ⟨a, s, rest, rfl, at_, zero, short⟩ := strlen_ok len
  obtain ⟨b, t, rest', rfl, at_', zero', short'⟩ := strlen_ok len'
  cases run.symm.trans
    (copyName_eq at_ at_' zero zero' short short' (bound a (.inl rfl)) (bound b (.inr rfl)))
  exact ⟨s, t, own.put i zero zero' short short'⟩

/-- An object is assigned to another one. -/
lemma assign (own : c.Owns objs persons) (ne : i ≠ j) (named : (persons j).Named) :
    ∃ p c', (objs i).assign c (objs j) = .ok (p, c') ∧
      c'.Owns (Function.update objs i p) (Function.update persons i (persons j)) := by
  obtain ⟨c₁, run₁, own₁, -⟩ := own.destroy i
  have obj : Function.update objs i .empty j = objs j := Function.update_of_ne ne.symm ..
  have person : Function.update persons i .empty j = persons j := Function.update_of_ne ne.symm ..
  obtain ⟨p, c₂, run₂, own₂⟩ := own₁.copyName i (j := j) (person ▸ named)
  rw [obj] at run₂
  rw [person, Function.update_idem, Function.update_idem] at own₂
  refine ⟨p, c₂, ?_, own₂⟩
  rw [assign_eq, run₁]
  exact run₂

/-- An object is assigned to itself: the first name is read after it has been freed. -/
lemma assign_self (own : c.Owns objs persons) (named : (persons i).Named) :
    (objs i).assign c (objs i) = .error .freed := by
  obtain ⟨a, s, nome, -⟩ := (own.isName (i, .nome)).of_ne_none named.1
  obtain ⟨c₁, run₁, -, gone⟩ := own.destroy i
  have nome : (objs i).nome = some a := nome
  rw [assign_eq, run₁]
  show PersonaObj.copyName c₁ (objs i).nome (objs i).cognome = _
  rw [PersonaObj.copyName, nome, Chars.strlen, Chars.read, gone a nome]
  rfl

end Chars.Owns

/-- No object has names. -/
lemma Chars.owns_empty {ι : Type} (c : Chars) : c.Owns (fun _ : ι => .empty) fun _ => .empty := by
  have none (f : ι × PersonaField) : PersonaObj.empty.get f.2 = none ∧ Persona.empty.get f.2 = none := by
    obtain ⟨i, f⟩ := f
    cases f <;> exact ⟨rfl, rfl⟩
  refine ⟨fun f => ?_, fun {f _ _} eq => ?_, fun {f _} eq => ?_⟩
  · rw [(none f).1, (none f).2]
    exact .null
  · cases (none f).1.symm.trans eq
  · cases (none f).1.symm.trans eq

end PDS.Cpp
