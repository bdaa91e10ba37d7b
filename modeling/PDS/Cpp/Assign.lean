import PDS.Cpp.Persona

/-!
# Assignment

Port of `Elenco::operator=` in `Malnati/lab1/Elenco.cpp`, on nodes that hold a `Persona` with its names in memory.

`Reflects` connects this memory with the one of `Elenco.lean`, where a name is a string and no assignment of a `Persona`
goes wrong: what the operations do there they do here. An assignment clears its target before it copies the source, and
does not ask whether the two are the same object (`assign_copies_iff`).
-/

namespace PDS.Cpp
open Links

/-- A person that is copied has both names. -/
lemma Persona.named_of_copy {p q : Persona} (run : p.copy = .ok q) : p.Named ∧ q = p := by
  obtain ⟨nome, cognome⟩ := p
  cases nome with
  | none => cases run
  | some nome =>
    cases cognome with
    | none => cases run
    | some cognome =>
      cases run
      exact ⟨⟨nofun, nofun⟩, rfl⟩

/-- A node, with a `Persona` in it. -/
structure NodeObj where
  p : PersonaObj
  next : Option Nat

/-- The nodes and the arrays that are allocated. -/
structure Heap where
  nodes : Nat → Option NodeObj
  brk : Nat
  chars : Chars

namespace Heap

/-- `*pn`. -/
def read (h : Heap) : Option Nat → Except Fault NodeObj
  | none => .error .null
  | some i =>
    match h.nodes i with
    | none => .error .freed
    | some n => .ok n

/-- `pn->next = next`. -/
def setNext (h : Heap) (pn next : Option Nat) : Except Fault Heap := do
  let n ← h.read pn
  match pn with
  | none => .error .null
  | some i => .ok { h with nodes := Function.update h.nodes i (some { n with next := next }) }

/-- `delete pn`, with the destructor of the `Persona`. -/
def delete (h : Heap) (pn : Option Nat) : Except Fault Heap := do
  let n ← h.read pn
  let chars ← n.p.destroy h.chars
  match pn with
  | none => .error .null
  | some i => .ok { h with nodes := Function.update h.nodes i none, chars := chars }

/-- `new Pnode`. -/
def new (h : Heap) : Nat × Heap :=
  (h.brk, { h with nodes := Function.update h.nodes h.brk (some ⟨.empty, none⟩), brk := h.brk + 1 })

/-- `pncopy->p = pn->p`. -/
def setPersona (h : Heap) (pncopy pn : Option Nat) : Except Fault Heap := do
  let n ← h.read pn
  let this ← h.read pncopy
  let (p, chars) ← this.p.assign h.chars n.p
  match pncopy with
  | none => .error .null
  | some i => .ok { h with nodes := Function.update h.nodes i (some { this with p := p }), chars := chars }

/-- What `copyList` does for an element: a new node, linked from `head` if that is null and from `last` otherwise, with a
copy of `pn->p` and no next. The results are `head` and the new node. -/
def append (h : Heap) (head last : Option Nat) (pn : Nat) : Except Fault (Option Nat × Nat × Heap) := do
  let (i, h) := h.new
  let (head, h) ←
    match head with
    | none => .ok (some i, h)
    | some first => do
      let h ← h.setNext last (some i)
      .ok (some first, h)
  let h ← h.setPersona (some i) (some pn)
  let h ← h.setNext (some i) none
  .ok (head, i, h)

/-- The loop of `clear`. -/
def clearLoop : Nat → Heap → Option Nat → Except Fault Heap
  | 0, _, _ => .error .spin
  | _ + 1, h, none => .ok h
  | fuel + 1, h, some tmp => do
    let n ← h.read (some tmp)
    let h ← h.delete (some tmp)
    clearLoop fuel h n.next

/-- The loop of `Elenco::copyList`. -/
def copyLoop : Nat → Heap → Elenco → Option Nat → Option Nat → Except Fault (Elenco × Heap)
  | 0, _, _, _, _ => .error .spin
  | _ + 1, h, e, none, pncopy => .ok ({ e with tail := pncopy }, h)
  | fuel + 1, h, e, some pn, pncopy => do
    let (head, i, h) ← h.append e.head pncopy pn
    let n ← h.read (some pn)
    let s ← Elenco.incr e.s
    copyLoop fuel h { e with head := head, s := s } n.next (some i)

/-- `Elenco::clear`. -/
def clear (h : Heap) (e : Elenco) : Except Fault (Elenco × Heap) := do
  let h ← clearLoop (h.brk + 1) h e.head
  .ok (Elenco.empty, h)

/-- `Elenco::operator=`, on the object `k` with the object `l`. If they are the same, `e.head` is the one that `clear`
leaves. -/
def assign (h : Heap) (objs : Nat → Elenco) (k l : Nat) : Except Fault ((Nat → Elenco) × Heap) := do
  let (e, h) ← h.clear (objs k)
  let objs := Function.update objs k e
  let (e, h) ← copyLoop (h.brk + 1) h (objs k) (objs l).head none
  .ok (Function.update objs k e, h)

/-- The object in a node; where there is no node it has no names. -/
def persona (h : Heap) (i : Nat) : PersonaObj := ((h.nodes i).map NodeObj.p).getD .empty

end Heap

/-- The person in a node, if there is one. -/
def Mem.persona (m : Mem) (i : Nat) : Persona := ((m.nodes i).map Pnode.p).getD .empty

/-- The nodes are those of `m`, with the same links, and their objects have the names of the persons of `m`. -/
structure Reflects (h : Heap) (m : Mem) : Prop where
  brk : h.brk = m.brk
  links : ∀ i, (h.nodes i).map NodeObj.next = (m.nodes i).map Pnode.next
  owns : h.chars.Owns h.persona m.persona
  fresh : ∀ i, m.brk ≤ i → m.nodes i = none

/-- Programs hold their lists in the heap. -/
def Heap.Describes (h : Heap) (objs : Nat → Elenco) (a : Lists) : Prop :=
  ∃ m own, Reflects h m ∧ World.Holds ⟨m, objs, a.made⟩ a own

namespace Heap

variable {h : Heap} {n : NodeObj} {i : Nat}

/-- Reads a live node. -/
lemma read_eq (live : h.nodes i = some n) : h.read (some i) = .ok n := by
  simp only [read, live]

/-- The person in a live node. -/
lemma persona_eq (live : h.nodes i = some n) : h.persona i = n.p := by
  rw [persona, live]
  rfl

/-- The persons after one node has been changed. -/
lemma persona_update (h : Heap) (i : Nat) (o : Option NodeObj) (brk : Nat) (chars : Chars) :
    Heap.persona ⟨Function.update h.nodes i o, brk, chars⟩ =
      Function.update h.persona i ((o.map NodeObj.p).getD .empty) :=
  Function.comp_update (fun o : Option NodeObj => (o.map NodeObj.p).getD .empty) h.nodes i o

end Heap

namespace Mem

variable {m m' : Mem} {n : Pnode} {pn : Option Nat} {i : Nat}

/-- The person in a live node, without the strings. -/
lemma persona_eq (live : m.nodes i = some n) : m.persona i = n.p := by
  rw [persona, live]
  rfl

/-- The persons after one node has been changed, without the strings. -/
lemma persona_update (m : Mem) (i : Nat) (o : Option Pnode) (brk : Nat) :
    Mem.persona ⟨Function.update m.nodes i o, brk⟩ = Function.update m.persona i ((o.map Pnode.p).getD .empty) :=
  Function.comp_update (fun o : Option Pnode => (o.map Pnode.p).getD .empty) m.nodes i o

/-- What is read is there. -/
lemma of_read (run : m.read pn = .ok n) : ∃ i, pn = some i ∧ m.nodes i = some n := by
  cases pn with
  | none => cases run
  | some i =>
    refine ⟨i, rfl, ?_⟩
    rw [read] at run
    cases live : m.nodes i with
    | none =>
      rw [live] at run
      cases run
    | some n' =>
      rw [live] at run
      cases run
      rfl

/-- What is written to is there. -/
lemma of_write {f : Pnode → Pnode} (run : m.write pn f = .ok m') :
    ∃ i n, pn = some i ∧ m.nodes i = some n ∧ m' = ⟨Function.update m.nodes i (some (f n)), m.brk⟩ := by
  obtain ⟨n, read, run⟩ := bind_ok_iff.1 run
  obtain ⟨i, rfl, live⟩ := of_read read
  cases run
  exact ⟨i, n, rfl, live, rfl⟩

/-- What is deleted was there. -/
lemma of_delete (run : m.delete pn = .ok m') :
    ∃ i n, pn = some i ∧ m.nodes i = some n ∧ m' = ⟨Function.update m.nodes i none, m.brk⟩ := by
  obtain ⟨n, read, run⟩ := bind_ok_iff.1 run
  obtain ⟨i, rfl, live⟩ := of_read read
  cases run
  exact ⟨i, n, rfl, live, rfl⟩

/-- The persons stay where they are when links change. -/
lemma live_of_write {f : Pnode → Pnode} (live : m.nodes i = some n) (run : m.write pn f = .ok m')
    (keep : ∀ n, (f n).p = n.p) : ∃ n', m'.nodes i = some n' ∧ n'.p = n.p := by
  obtain ⟨j, n₁, rfl, live₁, rfl⟩ := of_write run
  by_cases same : i = j
  · subst same
    cases live.symm.trans live₁
    exact ⟨f n, Function.update_self .., keep n⟩
  · exact ⟨n, (Function.update_of_ne same ..).trans live, rfl⟩

end Mem

namespace Reflects

variable {h h' : Heap} {m m' : Mem} {pn head head' last next : Option Nat} {n : Pnode} {i j : Nat} {e e' : Elenco}
  {fuel : Nat}

/-- A live node of the list is one in the heap with the strings. -/
lemma live (r : Reflects h m) (at_ : m.nodes i = some n) : ∃ p, h.nodes i = some ⟨p, n.next⟩ := by
  have link := r.links i
  rw [at_] at link
  obtain ⟨n', at', eq⟩ := Option.map_eq_some_iff.1 link
  exact ⟨n'.p, at'.trans (eq ▸ rfl)⟩

/-- The numbers of live nodes have been given out. -/
lemma lt (r : Reflects h m) (at_ : m.nodes i = some n) : i < m.brk := by
  by_contra ge
  rw [r.fresh i (Nat.le_of_not_lt ge)] at at_
  cases at_

/-- One node changes, and its object. -/
lemma update (r : Reflects h m) {o : Option NodeObj} {o' : Option Pnode} {brk : Nat} {chars : Chars}
    (link : o.map NodeObj.next = o'.map Pnode.next) (lt : i < brk) (le : m.brk ≤ brk)
    (owns : chars.Owns (Function.update h.persona i ((o.map NodeObj.p).getD .empty))
      (Function.update m.persona i ((o'.map Pnode.p).getD .empty))) :
    Reflects ⟨Function.update h.nodes i o, brk, chars⟩ ⟨Function.update m.nodes i o', brk⟩ := by
  refine ⟨rfl, ?_, ?_, ?_⟩
  · intro j
    by_cases same : j = i
    · subst same
      simp only [Function.update_self]
      exact link
    · simp only [Function.update_of_ne same]
      exact r.links j
  · rw [Heap.persona_update, Mem.persona_update]
    exact owns
  · intro j ge
    exact (Function.update_of_ne (lt.trans_le ge).ne' ..).trans (r.fresh j (le.trans ge))

/-- `pn->next = next` -/
lemma setNext (r : Reflects h m) (run : m.write pn (fun n => { n with next := next }) = .ok m') :
    ∃ h', h.setNext pn next = .ok h' ∧ Reflects h' m' := by
  obtain ⟨i, n, rfl, at_, rfl⟩ := Mem.of_write run
  obtain ⟨p, live⟩ := r.live at_
  have same : p = h.persona i := (Heap.persona_eq live).symm
  refine ⟨⟨Function.update h.nodes i (some ⟨p, next⟩), m.brk, h.chars⟩, ?_, r.update rfl (r.lt at_) le_rfl ?_⟩
  · rw [Heap.setNext, Heap.read_eq live, ok_bind, r.brk]
  · dsimp only [Option.map_some, Option.getD_some]
    rw [same, ← Mem.persona_eq at_, Function.update_eq_self, Function.update_eq_self]
    exact r.owns

/-- `delete pn` -/
lemma delete (r : Reflects h m) (run : m.delete pn = .ok m') : ∃ h', h.delete pn = .ok h' ∧ Reflects h' m' := by
  obtain ⟨i, n, rfl, at_, rfl⟩ := Mem.of_delete run
  obtain ⟨p, live⟩ := r.live at_
  obtain ⟨c, freed, owns, -⟩ := r.owns.destroy i
  rw [Heap.persona_eq live] at freed
  refine ⟨_, ?_, r.update (o := none) rfl (r.lt at_) le_rfl owns⟩
  rw [Heap.delete, Heap.read_eq live, ok_bind, freed, ok_bind, r.brk]

/-- `pn = new Pnode` -/
lemma new (r : Reflects h m) : Reflects h.new.2 m.new.2 := by
  have none : m.nodes m.brk = none := r.fresh m.brk le_rfl
  have none' : h.nodes m.brk = .none := by
    have link := r.links m.brk
    rw [none] at link
    exact Option.map_eq_none_iff.1 link
  have person : m.persona m.brk = .empty := by
    rw [Mem.persona, none]
    rfl
  have obj : h.persona m.brk = .empty := by
    rw [Heap.persona, none']
    rfl
  rw [Heap.new, Mem.new, r.brk]
  refine r.update rfl (Nat.lt_succ_self _) (Nat.le_succ _) ?_
  dsimp only [Option.map_some, Option.getD_some]
  rw [← person, ← obj, Function.update_eq_self, Function.update_eq_self]
  exact r.owns

/-- `pncopy->p = pn->p` -/
lemma setPersona (r : Reflects h m) (at_ : m.nodes j = some n) (named : n.p.Named) (ne : i ≠ j)
    (run : m.write (some i) (fun this => { this with p := n.p }) = .ok m') :
    ∃ h', h.setPersona (some i) (some j) = .ok h' ∧ Reflects h' m' := by
  obtain ⟨i, this, same, at_', rfl⟩ := Mem.of_write run
  cases same
  obtain ⟨p, live⟩ := r.live at_
  obtain ⟨p', live'⟩ := r.live at_'
  obtain ⟨q, c, copied, owns⟩ := r.owns.assign ne (Mem.persona_eq at_ ▸ named)
  rw [Heap.persona_eq live, Heap.persona_eq live'] at copied
  rw [Mem.persona_eq at_] at owns
  refine ⟨_, ?_, r.update (o := some ⟨q, this.next⟩) rfl (r.lt at_') le_rfl owns⟩
  rw [Heap.setPersona, Heap.read_eq live, ok_bind, Heap.read_eq live', ok_bind, copied, ok_bind, r.brk]

/-- One more element. -/
lemma append (r : Reflects h m) (at_ : m.nodes j = some n)
    (run : m.append head last n.p = .ok (head', i, m')) :
    ∃ h', h.append head last j = .ok (head', i, h') ∧ Reflects h' m' := by
  have ne : m.new.1 ≠ j := (r.lt at_).ne'
  have brk : h.new.1 = m.new.1 := r.brk
  have at₀ : m.new.2.nodes j = some n := (Function.update_of_ne ne.symm ..).trans at_
  cases head with
  | none =>
    rw [Mem.append] at run
    dsimp only at run
    rw [ok_bind] at run
    obtain ⟨p, copied, run⟩ := bind_ok_iff.1 run
    obtain ⟨named, rfl⟩ := Persona.named_of_copy copied
    obtain ⟨m₁, run₁, run⟩ := bind_ok_iff.1 run
    obtain ⟨m₂, run₂, done⟩ := bind_ok_iff.1 run
    cases done
    obtain ⟨h₁, step₁, r₁⟩ := r.new.setPersona at₀ named ne run₁
    obtain ⟨h₂, step₂, r₂⟩ := r₁.setNext run₂
    refine ⟨h₂, ?_, r₂⟩
    rw [Heap.append]
    dsimp only
    rw [ok_bind, brk, step₁, ok_bind, step₂]
    rfl
  | some first =>
    rw [Mem.append] at run
    dsimp only at run
    obtain ⟨m₁, run₁, run⟩ := bind_ok_iff.1 run
    rw [ok_bind] at run
    obtain ⟨p, copied, run⟩ := bind_ok_iff.1 run
    obtain ⟨named, rfl⟩ := Persona.named_of_copy copied
    obtain ⟨m₂, run₂, run⟩ := bind_ok_iff.1 run
    obtain ⟨m₃, run₃, done⟩ := bind_ok_iff.1 run
    cases done
    obtain ⟨h₁, step₁, r₁⟩ := r.new.setNext run₁
    -- the link may be that of the node that is copied
    obtain ⟨n₁, at₁, same⟩ := Mem.live_of_write at₀ run₁ fun _ => rfl
    rw [← same] at run₂
    obtain ⟨h₂, step₂, r₂⟩ := r₁.setPersona at₁ (same ▸ named) ne run₂
    obtain ⟨h₃, step₃, r₃⟩ := r₂.setNext run₃
    refine ⟨h₃, ?_, r₃⟩
    rw [Heap.append]
    dsimp only
    rw [brk, step₁, ok_bind, ok_bind]
    dsimp only
    rw [step₂, ok_bind, step₃]
    rfl

/-- What is read is there in both. -/
lemma read (r : Reflects h m) (run : m.read pn = .ok n) : ∃ p, h.read pn = .ok ⟨p, n.next⟩ := by
  obtain ⟨i, rfl, at_⟩ := Mem.of_read run
  obtain ⟨p, live⟩ := r.live at_
  exact ⟨p, Heap.read_eq live⟩

/-- The loop of `clear`, with the strings. -/
lemma clearLoop (r : Reflects h m) (run : Mem.clearLoop fuel m pn = .ok m') :
    ∃ h', Heap.clearLoop fuel h pn = .ok h' ∧ Reflects h' m' := by
  induction fuel generalizing h m pn with
  | zero => cases run
  | succ fuel ih =>
    cases pn with
    | none =>
      cases run
      exact ⟨h, rfl, r⟩
    | some tmp =>
      obtain ⟨n, read, run⟩ := bind_ok_iff.1 run
      obtain ⟨m₁, freed, run⟩ := bind_ok_iff.1 run
      obtain ⟨p, read'⟩ := r.read read
      obtain ⟨h₁, freed', r₁⟩ := r.delete freed
      obtain ⟨h', rest, r'⟩ := ih r₁ run
      refine ⟨h', ?_, r'⟩
      rw [Heap.clearLoop, read', ok_bind, freed', ok_bind]
      exact rest

/-- `clear`, with the strings. -/
lemma clear (r : Reflects h m) (run : Elenco.clear m e = .ok (e', m')) :
    ∃ h', h.clear e = .ok (e', h') ∧ Reflects h' m' := by
  obtain ⟨m₁, freed, done⟩ := bind_ok_iff.1 run
  cases done
  obtain ⟨h', freed', r'⟩ := r.clearLoop freed
  refine ⟨h', ?_, r'⟩
  rw [Heap.clear, r.brk, freed', ok_bind]

/-- The loop of the copy, with the strings. -/
lemma copyLoop (r : Reflects h m) (run : Elenco.copyLoop fuel m e head pn = .ok (e', m')) :
    ∃ h', Heap.copyLoop fuel h e head pn = .ok (e', h') ∧ Reflects h' m' := by
  induction fuel generalizing h m e head pn with
  | zero => cases run
  | succ fuel ih =>
    cases head with
    | none =>
      cases run
      exact ⟨h, rfl, r⟩
    | some j =>
      obtain ⟨n, read, run⟩ := bind_ok_iff.1 run
      obtain ⟨⟨head₁, i, m₁⟩, appended, run⟩ := bind_ok_iff.1 run
      obtain ⟨n₁, read₁, run⟩ := bind_ok_iff.1 run
      obtain ⟨s, count, run⟩ := bind_ok_iff.1 run
      obtain ⟨_, same, at_⟩ := Mem.of_read read
      cases same
      obtain ⟨h₁, appended', r₁⟩ := r.append at_ appended
      obtain ⟨p, read'⟩ := r₁.read read₁
      obtain ⟨h', rest, r'⟩ := ih r₁ run
      refine ⟨h', ?_, r'⟩
      rw [Heap.copyLoop, appended', ok_bind]
      dsimp only
      rw [read', ok_bind, count, ok_bind]
      exact rest

end Reflects

/-- After the assignment of the list `l` to the list `k` the lists are as they were, but for `k`, which has the elements
that `l` had. -/
def Heap.AssignCopies (h : Heap) (objs : Nat → Elenco) (a : Lists) (k l : Nat) : Prop :=
  ∃ objs' h', h.assign objs k l = .ok (objs', h') ∧
    h'.Describes objs' { a with lists := Function.update a.lists k (a.lists l) }

/-- After the assignment of the object `j` to the object `i` the objects are as they were, but for `i`, which has the names
that `j` had. -/
def Chars.AssignCopies (c : Chars) (objs : Nat → PersonaObj) (persons : Nat → Persona) (i j : Nat) : Prop :=
  ∃ objs' c', assignPersona c objs i j = .ok (objs', c') ∧ c'.Owns objs' (Function.update persons i (persons j))

variable {h : Heap} {objs : Nat → Elenco} {a : Lists} {k l : Nat} {c : Chars} {ps : Nat → PersonaObj}
  {persons : Nat → Persona} {i j : Nat}

/-- The first list is cleared, and then the second one is copied, if it is there still. -/
lemma Heap.Describes.assign (desc : h.Describes objs a) (made : k < a.made) (good : k = l → a.lists k = []) :
    h.AssignCopies objs a k l := by
  obtain ⟨m, own, r, holds⟩ := desc
  obtain ⟨m₁, cleared, change⟩ := Elenco.clear_spec (holds.lists k)
  obtain ⟨h₁, cleared', r₁⟩ := r.clear cleared
  have holds₁ : World.Holds ⟨m₁, Function.update objs k .empty, a.made⟩ ⟨Function.update a.lists k [], a.made⟩
      (Function.update own k []) :=
    holds.update_made made ⟨Mem.Holds.nil m₁, rfl⟩ change (by decide) nofun
  have src : Function.update a.lists k [] l = a.lists l := by
    by_cases same : l = k
    · rw [same, Function.update_self, good same.symm]
    · exact Function.update_of_ne same ..
  have small := holds₁.small l
  obtain ⟨e, m₂, is, copied, describes, change₂⟩ := Elenco.copyLoop_spec (Mem.Holds.nil m₁) (e := .empty) rfl
    (holds₁.lists l).toHolds (fun _ _ => List.not_mem_nil) (holds₁.named l) (by simpa using small)
    (holds₁.lists l).length_lt
  obtain ⟨h₂, copied', r₂⟩ := r₁.copyLoop copied
  refine ⟨Function.update objs k e, h₂, ?_, m₂, Function.update own k is, r₂, ?_⟩
  · rw [Heap.assign, cleared', ok_bind]
    dsimp only
    rw [Function.update_self, r₁.brk, copied', ok_bind, Function.update_idem]
  · have cleared : Function.update own k [] k = [] := Function.update_self ..
    have holds₂ := holds₁.update_made (k := k) made describes (cleared.symm ▸ change₂) small (holds₁.named l)
    simp only [Function.update_idem, List.nil_append] at holds₂
    rw [src] at holds₂
    exact holds₂

/-- A list that is assigned to itself is cleared, and an empty list is copied. -/
lemma Heap.assign_self {h' : Heap} {objs' : Nat → Elenco} (run : h.assign objs k k = .ok (objs', h')) :
    objs' k = .empty := by
  obtain ⟨⟨e, h₁⟩, cleared, run⟩ := bind_ok_iff.1 run
  obtain ⟨h₂, -, done⟩ := bind_ok_iff.1 cleared
  cases done
  dsimp only at run
  rw [Function.update_self] at run
  cases run
  exact Function.update_self ..

/-- An assignment to itself copies only the empty list. -/
lemma Heap.AssignCopies.nil (copies : h.AssignCopies objs a k k) : a.lists k = [] := by
  obtain ⟨objs', h', run, m, own, -, holds⟩ := copies
  have list : m.Holds (objs' k).head (objs' k).tail (own k) (Function.update a.lists k (a.lists k) k) :=
    (holds.lists k).toHolds
  rw [Heap.assign_self run, Function.update_self] at list
  have none : own k = [] := list.chain.unique rfl
  exact List.length_eq_zero_iff.1 (list.length.symm.trans (congrArg List.length none))

/-- One person is assigned to another. -/
lemma Chars.Owns.assignPersona (own : c.Owns ps persons) (ne : i ≠ j) (named : (persons j).Named) :
    c.AssignCopies ps persons i j := by
  obtain ⟨p, c', run, own'⟩ := own.assign ne named
  refine ⟨_, c', ?_, own'⟩
  rw [PDS.Cpp.assignPersona, run]
  rfl

/-- A person that is assigned to itself loses its names. -/
lemma Chars.Owns.not_assignCopies (own : c.Owns ps persons) (named : (persons i).Named) :
    ¬ c.AssignCopies ps persons i i := by
  rintro ⟨objs', c', run, -⟩
  rw [PDS.Cpp.assignPersona, own.assign_self named] at run
  cases run

/-- An assignment of a list to a list makes the target a copy of the source, if and only if they are not the same object,
or the list is empty. An assignment of a `Persona` with both names does so, if and only if it is not to itself. -/
theorem assign_copies_iff (lists : h.Describes objs a) (made : k < a.made) (own : c.Owns ps persons)
    (named : (persons j).Named) :
    (h.AssignCopies objs a k l ↔ (k = l → a.lists k = [])) ∧ (c.AssignCopies ps persons i j ↔ i ≠ j) := by
  refine ⟨⟨?_, lists.assign made⟩, ⟨?_, fun ne => own.assignPersona ne named⟩⟩
  · rintro copies rfl
    exact copies.nil
  · rintro copies rfl
    exact own.not_assignCopies named copies

/-- One person in memory. -/
def Chars.single (s t : List UInt8) : Chars := (Chars.put ⟨fun _ => none, 0⟩ s).put t

/-- The nodes of a list of one person. -/
def Heap.single (s t : List UInt8) : Heap :=
  ⟨Function.update (fun _ => none) 0 (some ⟨⟨some 0, some 1⟩, none⟩), 1, .single s t⟩

/-- A list of one person and an empty list. -/
def Lists.single (p : Persona) : Lists := ⟨Function.update (fun _ => []) 0 [p], 2⟩

/-- One person with its two names. -/
lemma Chars.owns_single {s t : List UInt8} (zero : 0 ∉ s) (zero' : 0 ∉ t) (short : s.length < 2 ^ 31 - 1)
    (short' : t.length < 2 ^ 31 - 1) :
    (Chars.single s t).Owns (Function.update (fun _ : Nat => .empty) 0 ⟨some 0, some 1⟩)
      (Function.update (fun _ => .empty) 0 ⟨some s, some t⟩) :=
  (Chars.owns_empty _).put 0 zero zero' short short'

/-- One list with one person. -/
lemma Heap.describes_single {s t : List UInt8} (zero : 0 ∉ s) (zero' : 0 ∉ t) (short : s.length < 2 ^ 31 - 1)
    (short' : t.length < 2 ^ 31 - 1) :
    (Heap.single s t).Describes (Function.update (fun _ => .empty) 0 ⟨some 0, some 0, 1⟩)
      (Lists.single ⟨some s, some t⟩) := by
  have none : Reflects ⟨fun _ => none, 0, ⟨fun _ => none, 0⟩⟩ ⟨fun _ => none, 0⟩ :=
    ⟨rfl, fun _ => rfl, Chars.owns_empty _, fun _ _ => rfl⟩
  have start : World.Holds ⟨⟨fun _ => .none, 0⟩, fun _ => .empty, 2⟩ ⟨fun _ => [], 2⟩ fun _ => [] :=
    ⟨rfl, fun _ => ⟨Mem.Holds.nil _, rfl⟩, fun _ _ _ _ mem => absurd mem List.not_mem_nil, fun _ => Nat.two_pow_pos 31,
      fun _ _ mem => absurd mem List.not_mem_nil, fun _ _ => rfl⟩
  refine ⟨⟨Function.update (fun _ => .none) 0 (some ⟨⟨some s, some t⟩, .none⟩), 1⟩, Function.update (fun _ => []) 0 [0],
    none.update rfl Nat.one_pos (Nat.zero_le _) (Chars.owns_single zero zero' short short'), ?_⟩
  refine start.update_made Nat.two_pos ⟨⟨⟨rfl, rfl⟩, List.nodup_singleton _, rfl, rfl, ?_⟩, rfl⟩ ⟨?_, ?_, ?_⟩ ?_ ?_
  · intro i mem
    rw [List.mem_singleton.1 mem]
    exact Nat.one_pos
  · exact fun _ _ lt => absurd lt (Nat.not_lt_zero _)
  · exact Nat.zero_le 1
  · exact fun i _ => .inr (Nat.zero_le i)
  · exact Nat.one_lt_two_pow (by decide)
  · intro p mem
    rw [List.mem_singleton.1 mem]
    exact ⟨nofun, nofun⟩

/-- A list of one person is assigned to an empty list, and its person to a new one. -/
theorem assign_copies_iff_single :
    (Heap.single [65] [66]).AssignCopies (Function.update (fun _ => .empty) 0 ⟨some 0, some 0, 1⟩)
      (Lists.single ⟨some [65], some [66]⟩) 1 0 ∧
    (Chars.single [65] [66]).AssignCopies (Function.update (fun _ => .empty) 0 ⟨some 0, some 1⟩)
      (Function.update (fun _ => .empty) 0 ⟨some [65], some [66]⟩) 1 0 := by
  have both := assign_copies_iff (k := 1) (l := 0) (i := 1) (j := 0)
    (Heap.describes_single (s := [65]) (t := [66]) (by decide) (by decide) (by decide) (by decide)) (by decide)
    (Chars.owns_single (s := [65]) (t := [66]) (by decide) (by decide) (by decide) (by decide)) ⟨nofun, nofun⟩
  exact ⟨both.1.2 fun same => absurd same (by decide), both.2.2 (by decide)⟩

/-- A list of one person is assigned to itself, and the person to itself. -/
theorem not_assign_copies_self :
    ¬ (Heap.single [65] [66]).AssignCopies (Function.update (fun _ => .empty) 0 ⟨some 0, some 0, 1⟩)
      (Lists.single ⟨some [65], some [66]⟩) 0 0 ∧
    ¬ (Chars.single [65] [66]).AssignCopies (Function.update (fun _ => .empty) 0 ⟨some 0, some 1⟩)
      (Function.update (fun _ => .empty) 0 ⟨some [65], some [66]⟩) 0 0 := by
  refine ⟨?_, ?_⟩
  · intro copies
    cases copies.nil
  · exact (Chars.owns_single (by decide) (by decide) (by decide) (by decide)).not_assignCopies ⟨nofun, nofun⟩

end PDS.Cpp
