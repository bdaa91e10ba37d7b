import PDS.Cpp.Elenco
import PDS.Lib.Fallible

/-!
# Lists of persons are lists

`Mem.Holds` relates the nodes from `head` to `tail` to a mathematical list; `append`, `walkTo`, `clearLoop` and `copyLoop`
are specified with it, each together with the nodes it leaves alone. `World.Holds` says it for all lists of a program,
which do not share nodes.
-/

namespace PDS.Cpp
open Links

/-- Both names are copied. -/
lemma Persona.Named.copy {p : Persona} (named : p.Named) : p.copy = .ok p := by
  obtain ⟨nome, cognome⟩ := p
  cases nome with
  | none => exact absurd rfl named.1
  | some nome =>
    cases cognome with
    | none => exact absurd rfl named.2
    | some cognome => rfl

namespace Mem

variable {m m' : Mem} {head tail prev pn last : Option Nat} {is js a b : List Nat} {i : Nat} {n : Pnode}
  {vals vals' : List Persona} {p : Persona}

/-- The link of a node. -/
def next (m : Mem) (i : Nat) : Option Nat := (m.nodes i).bind Pnode.next

/-- The value of a node. -/
def val (m : Mem) (i : Nat) : Option Persona := (m.nodes i).map Pnode.p

/-- The link of a live node. -/
lemma next_eq (live : m.nodes i = some n) : m.next i = n.next := by
  rw [next, live]
  rfl

/-- The person of a live node. -/
lemma val_eq (live : m.nodes i = some n) : m.val i = some n.p := by
  rw [val, live]
  rfl

/-- Reads a live node. -/
lemma read_eq (live : m.nodes i = some n) : m.read (some i) = .ok n := by
  simp only [read, live]

/-- Writes to a live node. -/
lemma write_eq (live : m.nodes i = some n) (f : Pnode → Pnode) :
    m.write (some i) f = .ok { m with nodes := Function.update m.nodes i (some (f n)) } := by
  rw [write, read_eq live]
  rfl

/-- Deletes a live node. -/
lemma delete_eq (live : m.nodes i = some n) :
    m.delete (some i) = .ok { m with nodes := Function.update m.nodes i none } := by
  rw [delete, read_eq live]
  rfl

/-- The nodes `is` are linked from `head` up to `tail`, and hold `vals`. -/
structure Holds (m : Mem) (head tail : Option Nat) (is : List Nat) (vals : List Persona) : Prop where
  chain : Chain m.next head is
  nodup : is.Nodup
  values : is.map m.val = vals.map some
  tail : tail = is.getLast?
  bound : ∀ i ∈ is, i < m.brk

namespace Holds

/-- The empty list. -/
lemma nil (m : Mem) : m.Holds none none [] [] := ⟨rfl, List.nodup_nil, rfl, rfl, nofun⟩

/-- There are as many persons as nodes. -/
lemma length (h : m.Holds head tail is vals) : is.length = vals.length := by
  simpa using congrArg List.length h.values

/-- The nodes of a list are there. -/
lemma live (h : m.Holds head tail is vals) (mem : i ∈ is) : ∃ n, m.nodes i = some n ∧ n.p ∈ vals := by
  have val : m.val i ∈ vals.map some := h.values ▸ List.mem_map_of_mem mem
  obtain ⟨p, hp, eq⟩ := List.mem_map.1 val
  obtain ⟨n, live, rfl⟩ := Option.map_eq_some_iff.1 eq.symm
  exact ⟨n, live, hp⟩

/-- A list does not depend on other nodes. -/
lemma frame (h : m.Holds head tail is vals) (same : ∀ i ∈ is, m'.nodes i = m.nodes i) (le : m.brk ≤ m'.brk) :
    m'.Holds head tail is vals := by
  refine ⟨h.chain.frame ?_, h.nodup, ?_, h.tail, fun i mem => (h.bound i mem).trans_le le⟩
  · intro i mem
    rw [next, next, same i mem]
  · rw [← h.values]
    refine List.map_congr_left fun i mem => ?_
    rw [val, val, same i mem]

/-- The node at a position, and what comes before and after it. -/
lemma split (h : m.Holds head tail is vals) {k : Nat} (lt : k < vals.length) :
    ∃ a i b n, is = a ++ i :: b ∧ a.length = k ∧ m.nodes i = some n ∧ vals[k]? = some n.p ∧
      (a ++ b).map m.val = (vals.eraseIdx k).map some := by
  have lt' : k < is.length := h.length ▸ lt
  obtain ⟨n, live, -⟩ := h.live (List.getElem_mem lt')
  have len : (is.take k).length = k := List.length_take_of_le lt'.le
  refine ⟨is.take k, is[k], is.drop (k + 1), n, ?_, len, live, ?_, ?_⟩
  · rw [List.cons_getElem_drop_succ, List.take_append_drop]
  · have at' := congrArg (·[k]?) h.values
    simp only [List.getElem?_map, List.getElem?_eq_getElem lt', Option.map_some, val_eq live] at at'
    obtain ⟨p, eq, same⟩ := Option.map_eq_some_iff.1 at'.symm
    rw [eq, Option.some.inj same]
  · rw [← List.eraseIdx_eq_take_drop_succ, ← List.eraseIdx_map, h.values, List.eraseIdx_map]

end Holds

/-- The loop goes on along the nodes. -/
lemma walkTo_spec (seg : Seg m.next pn a (some i)) (live : ∀ j ∈ a, ∃ n, m.nodes j = some n) (prev : Option Nat) :
    m.walkTo a.length prev pn = .ok (lastOr prev a, some i) := by
  induction a generalizing prev pn with
  | nil =>
    cases seg
    rfl
  | cons j a ih =>
    obtain ⟨rfl, seg⟩ := seg
    obtain ⟨n, eq⟩ := live j List.mem_cons_self
    rw [List.length_cons, walkTo, read_eq eq, ok_bind, lastOr_cons, ← next_eq eq]
    exact ih seg (fun k mem => live k (List.mem_cons_of_mem _ mem)) _

/-- The links after one node has been changed. -/
lemma next_update (m : Mem) (i brk : Nat) (o : Option Pnode) :
    Mem.next ⟨Function.update m.nodes i o, brk⟩ = Function.update m.next i (o.bind Pnode.next) :=
  Function.comp_update (Option.bind · Pnode.next) m.nodes i o

/-- The persons after one node has been changed. -/
lemma val_update (m : Mem) (i brk : Nat) (o : Option Pnode) :
    Mem.val ⟨Function.update m.nodes i o, brk⟩ = Function.update m.val i (o.map Pnode.p) :=
  Function.comp_update (Option.map Pnode.p) m.nodes i o

/-- A new node at the end of a list whose last link leads to it. -/
lemma Holds.snoc (h : m.Holds head last is vals) {head' : Option Nat} {nodes : Nat → Option Pnode}
    (seg : Seg (Mem.next ⟨nodes, m.brk⟩) head' is (some m.brk)) (same : ∀ j ∈ is, Mem.val ⟨nodes, m.brk⟩ j = m.val j) :
    Mem.Holds ⟨Function.update nodes m.brk (some ⟨p, none⟩), m.brk + 1⟩ head' (some m.brk) (is ++ [m.brk])
      (vals ++ [p]) := by
  have fresh : m.brk ∉ is := fun mem => lt_irrefl _ (h.bound _ mem)
  have ne : ∀ j ∈ is, j ≠ m.brk := fun j mem eq => fresh (eq ▸ mem)
  have next' := next_update ⟨nodes, m.brk⟩ m.brk (m.brk + 1) (some ⟨p, none⟩)
  have val' := val_update ⟨nodes, m.brk⟩ m.brk (m.brk + 1) (some ⟨p, none⟩)
  refine ⟨?_, ?_, ?_, ?_, ?_⟩
  · rw [next']
    refine seg_append.2 ⟨some m.brk, seg.update fresh, rfl, ?_⟩
    rw [Function.update_self]
    rfl
  · refine List.nodup_append.2 ⟨h.nodup, List.nodup_singleton _, ?_⟩
    intro j mem k last
    rw [List.mem_singleton.1 last]
    exact ne j mem
  · rw [val', List.map_append, List.map_append, ← h.values, List.map_singleton, Function.update_self]
    refine congrArg (· ++ _) (List.map_congr_left fun j mem => ?_)
    rw [Function.update_of_ne (ne j mem), same j mem]
  · rw [List.getLast?_concat]
  · intro j mem
    rcases List.mem_append.1 mem with mem | mem
    · exact Nat.lt_succ_of_lt (h.bound j mem)
    · exact (List.mem_singleton.1 mem) ▸ Nat.lt_succ_self _

/-- One more element. -/
lemma Holds.append (h : m.Holds head last is vals) (named : p.Named) :
    ∃ head' m', m.append head last p = .ok (head', m.brk, m') ∧
      m'.Holds head' (some m.brk) (is ++ [m.brk]) (vals ++ [p]) ∧ m'.brk = m.brk + 1 ∧
      ∀ j, j ∉ is → j ≠ m.brk → m'.nodes j = m.nodes j := by
  cases head with
  | none =>
    have nil : is = [] := by
      cases is with
      | nil => rfl
      | cons j is => cases h.chain.1
    subst nil
    refine ⟨some m.brk, ⟨Function.update m.nodes m.brk (some ⟨p, none⟩), m.brk + 1⟩, ?_, ?_, rfl, ?_⟩
    · rw [Mem.append, new]
      dsimp only
      rw [ok_bind, named.copy, ok_bind, write_eq (Function.update_self ..), ok_bind, write_eq (Function.update_self ..),
        ok_bind]
      simp only [Function.update_idem]
    · exact h.snoc rfl fun j mem => absurd mem List.not_mem_nil
    · intro j _ ne
      exact Function.update_of_ne ne _ _
  | some hd =>
    obtain ⟨l, eq⟩ : ∃ l, is.getLast? = some l := by
      cases is with
      | nil => cases h.chain
      | cons j is => exact ⟨_, List.getLast?_cons⟩
    have mem : l ∈ is := List.mem_of_getLast? eq
    obtain ⟨n, live, -⟩ := h.live mem
    have ne : l ≠ m.brk := (h.bound l mem).ne
    have lastEq : last = some l := h.tail.trans eq
    refine ⟨some hd, ⟨Function.update (Function.update m.nodes l (some { n with next := some m.brk })) m.brk
      (some ⟨p, none⟩), m.brk + 1⟩, ?_, ?_, rfl, ?_⟩
    · rw [Mem.append, new]
      dsimp only
      rw [lastEq, write_eq ((Function.update_of_ne ne ..).trans live), ok_bind, ok_bind, named.copy, ok_bind]
      dsimp only
      rw [write_eq ((Function.update_of_ne ne.symm ..).trans (Function.update_self ..)), ok_bind,
        write_eq (Function.update_self ..), ok_bind]
      simp only [Function.update_idem, Function.update_comm ne.symm]
    · refine h.snoc ?_ ?_
      · rw [next_update]
        have seg := h.chain.setLink (v := some m.brk) h.nodup
        rw [eq] at seg
        exact seg
      · intro j _
        rw [val_update]
        by_cases same : j = l
        · rw [same, Function.update_self, val_eq live]
          rfl
        · rw [Function.update_of_ne same]
    · intro j out ne'
      refine (Function.update_of_ne ne' ..).trans (Function.update_of_ne ?_ ..)
      exact fun same => out (same ▸ mem)

/-- What a call on the list of the nodes `is` may do, which has the nodes `is'` afterwards: other nodes stay, and nodes
that join are new. -/
structure Change (m m' : Mem) (is is' : List Nat) : Prop where
  frame : ∀ j, j ∉ is → j < m.brk → m'.nodes j = m.nodes j
  brk : m.brk ≤ m'.brk
  sub : ∀ i ∈ is', i ∈ is ∨ m.brk ≤ i

/-- The node after `a` is taken out. -/
lemma Holds.unlink (h : m.Holds head tail (a ++ i :: b) vals) (live : m.nodes i = some n) {x : Nat} {nx : Pnode}
    (before : a.getLast? = some x) (livex : m.nodes x = some nx) (rest : (a ++ b).map m.val = vals'.map some) :
    Mem.Holds ⟨Function.update (Function.update m.nodes x (some { nx with next := n.next })) i none, m.brk⟩ head
      (if some i = tail then some x else tail) (a ++ b) vals' := by
  have nd := h.nodup
  rw [List.nodup_middle, List.nodup_cons] at nd
  obtain ⟨out, nd⟩ := nd
  obtain ⟨nda, -, apart⟩ := List.nodup_append.1 nd
  have outa : i ∉ a := fun mem => out (List.mem_append_left _ mem)
  have outb : i ∉ b := fun mem => out (List.mem_append_right _ mem)
  have memx : x ∈ a := List.mem_of_getLast? before
  obtain ⟨t, sega, eq, segb⟩ := seg_append.1 h.chain
  have next' : Mem.next ⟨Function.update (Function.update m.nodes x (some { nx with next := n.next })) i none, m.brk⟩ =
      Function.update (Function.update m.next x n.next) i none := by
    rw [next_update ⟨Function.update m.nodes x (some { nx with next := n.next }), m.brk⟩, next_update]
    rfl
  have val' : Mem.val ⟨Function.update (Function.update m.nodes x (some { nx with next := n.next })) i none, m.brk⟩ =
      Function.update (Function.update m.val x (some nx.p)) i none := by
    rw [val_update ⟨Function.update m.nodes x (some { nx with next := n.next }), m.brk⟩, val_update]
    rfl
  refine ⟨?_, nd, ?_, ?_, ?_⟩
  · rw [next']
    have link := sega.setLink (v := n.next) nda
    rw [before] at link
    refine seg_append.2 ⟨n.next, link.update outa, Seg.update (Seg.update (next_eq live ▸ segb) ?_) outb⟩
    exact fun memx' => apart x memx x memx' rfl
  · rw [val', ← rest]
    refine List.map_congr_left fun j mem => ?_
    rw [Function.update_of_ne fun same : j = i => out (same ▸ mem)]
    by_cases same : j = x
    · rw [same, Function.update_self, val_eq livex]
    · rw [Function.update_of_ne same]
  · have last := h.tail
    cases b with
    | nil => rw [if_pos (by rw [last, List.getLast?_concat]), List.append_nil, before]
    | cons y b =>
      have eq' : (a ++ i :: y :: b).getLast? = (a ++ y :: b).getLast? := by
        rw [List.getLast?_append_cons, List.getLast?_append_cons, List.getLast?_cons_cons]
      rw [if_neg, last, eq']
      intro same
      rw [last, eq', List.getLast?_append_cons] at same
      exact outb (List.mem_of_getLast? same.symm)
  · intro j mem
    refine h.bound j ?_
    simp only [List.mem_append, List.mem_cons] at mem ⊢
    tauto

/-- All nodes of a list are deleted. -/
lemma clearLoop_spec {fuel : Nat} (chain : Chain m.next head is) (nodup : is.Nodup)
    (live : ∀ i ∈ is, ∃ n, m.nodes i = some n) (enough : is.length < fuel) :
    ∃ m', clearLoop fuel m head = .ok m' ∧ m'.brk = m.brk ∧ ∀ j, j ∉ is → m'.nodes j = m.nodes j := by
  induction is generalizing fuel m head with
  | nil =>
    cases chain
    cases fuel with
    | zero => exact absurd enough (Nat.not_lt_zero _)
    | succ fuel => exact ⟨m, rfl, rfl, fun _ _ => rfl⟩
  | cons i is ih =>
    obtain ⟨rfl, chain⟩ := chain
    obtain ⟨out, nodup⟩ := List.nodup_cons.1 nodup
    obtain ⟨n, eq⟩ := live i List.mem_cons_self
    cases fuel with
    | zero => exact absurd enough (Nat.not_lt_zero _)
    | succ fuel =>
      have chain' : Chain (Mem.next ⟨Function.update m.nodes i none, m.brk⟩) n.next is := by
        rw [next_update, ← next_eq eq]
        exact chain.update out
      have live' : ∀ j ∈ is, ∃ n, (Mem.mk (Function.update m.nodes i none) m.brk).nodes j = some n := by
        intro j mem
        obtain ⟨n, eq⟩ := live j (List.mem_cons_of_mem _ mem)
        exact ⟨n, (Function.update_of_ne (fun same : j = i => out (same ▸ mem)) ..).trans eq⟩
      obtain ⟨m', run, brk, frame⟩ := ih chain' nodup live' (Nat.lt_of_succ_lt_succ enough)
      refine ⟨m', ?_, brk, ?_⟩
      · rw [clearLoop, read_eq eq, ok_bind, delete_eq eq, ok_bind]
        exact run
      · intro j out
        rw [List.mem_cons, not_or] at out
        exact (frame j out.2).trans (Function.update_of_ne out.1 ..)

/-- The rest of a list is a list. -/
lemma Holds.rest (h : m.Holds head tail (i :: is) (p :: vals)) (live : m.nodes i = some n) :
    n.p = p ∧ m.Holds n.next is.getLast? is vals := by
  obtain ⟨-, chain⟩ := h.chain
  have eq := h.values
  rw [List.map_cons, List.map_cons, val_eq live] at eq
  obtain ⟨same, eq⟩ := List.cons.inj eq
  exact ⟨Option.some.inj same, next_eq live ▸ chain, (List.nodup_cons.1 h.nodup).2, eq, rfl,
    fun j mem => h.bound j (List.mem_cons_of_mem _ mem)⟩

/-- A list has no more nodes than were given out. -/
lemma Holds.length_lt (h : m.Holds head tail is vals) : is.length < m.brk + 1 := by
  have sub : is ⊆ List.range m.brk := fun i mem => List.mem_range.2 (h.bound i mem)
  have le := (h.nodup.subperm sub).length_le
  rw [List.length_range] at le
  exact Nat.lt_succ_of_le le

end Mem

namespace Elenco
open Mem

variable {m : Mem} {e : Elenco} {head tail pn : Option Nat} {is c l : List Nat} {vals dvals : List Persona} {p : Persona}
  {pos : Int}

/-- An object describes a list. -/
structure Describes (m : Mem) (e : Elenco) (is : List Nat) (vals : List Persona) : Prop
    extends m.Holds e.head e.tail is vals where
  size : e.s = vals.length

/-- The counter counts on as long as it is small. -/
lemma incr_of_lt {s : Int} (lt : s < 2 ^ 31 - 1) : incr s = .ok (s + 1) := if_neg lt.ne

/-- `add` puts a person behind the others. -/
lemma add_spec (h : Describes m e is vals) (named : p.Named) (small : vals.length < 2 ^ 31 - 1) :
    ∃ e' m' is', add m e p = .ok (e', m') ∧ Describes m' e' is' (vals ++ [p]) ∧ Change m m' is is' := by
  obtain ⟨head', m', run, holds, brk, frame⟩ := h.toHolds.append named
  refine ⟨⟨head', some m.brk, e.s + 1⟩, m', is ++ [m.brk], ?_, ⟨holds, ?_⟩, ?_, brk ▸ Nat.le_succ _, ?_⟩
  · have lt : e.s < 2 ^ 31 - 1 := by
      rw [h.size]
      omega
    rw [add, named.copy, ok_bind, run, ok_bind]
    dsimp only
    rw [incr_of_lt lt, ok_bind]
  · rw [h.size, List.length_append, List.length_singleton]
    rfl
  · exact fun j out lt => frame j out lt.ne
  · intro i mem
    rcases List.mem_append.1 mem with mem | mem
    · exact .inl mem
    · exact .inr (List.mem_singleton.1 mem).ge

/-- The counter is at its end. -/
lemma add_overflow (h : Describes m e is vals) (named : p.Named) (large : vals.length = 2 ^ 31 - 1) :
    add m e p = .error .overflow := by
  obtain ⟨head', m', run, -⟩ := h.toHolds.append named
  have max : e.s = 2 ^ 31 - 1 := by
    rw [h.size, large]
    rfl
  rw [add, named.copy, ok_bind, run, ok_bind]
  dsimp only
  rw [incr, if_pos max]
  rfl

/-- `clear` deletes all nodes. -/
lemma clear_spec (h : Describes m e is vals) :
    ∃ m', clear m e = .ok (empty, m') ∧ Change m m' is [] := by
  obtain ⟨m', run, brk, frame⟩ := clearLoop_spec h.chain h.nodup
    (fun i mem => (h.live mem).imp fun _ live => live.1) h.length_lt
  refine ⟨m', ?_, fun j out _ => frame j out, brk.ge, nofun⟩
  rw [clear, run, ok_bind]

/-- The loop of the copy adds the persons one by one. -/
lemma copyLoop_spec {fuel : Nat} {t : Option Nat} (h : m.Holds e.head pn c dvals) (size : e.s = dvals.length)
    (src : m.Holds head t l vals) (apart : ∀ i ∈ l, i ∉ c) (named : ∀ p ∈ vals, p.Named)
    (small : dvals.length + vals.length < 2 ^ 31) (enough : l.length < fuel) :
    ∃ e' m' c', copyLoop fuel m e head pn = .ok (e', m') ∧ Describes m' e' c' (dvals ++ vals) ∧ Change m m' c c' := by
  induction fuel generalizing m e head pn c dvals l vals t with
  | zero => exact absurd enough (Nat.not_lt_zero _)
  | succ fuel ih =>
    cases l with
    | nil =>
      cases src.chain
      have none : vals = [] := List.length_eq_zero_iff.1 src.length.symm
      rw [none, List.append_nil]
      exact ⟨{ e with tail := pn }, m, c, rfl, ⟨h, size⟩, fun _ _ _ => rfl, le_rfl, fun _ mem => .inl mem⟩
    | cons i l =>
      cases vals with
      | nil => cases src.length
      | cons p vals =>
        obtain ⟨rfl, -⟩ := src.chain
        obtain ⟨n, live, -⟩ := src.live List.mem_cons_self
        obtain ⟨rfl, rest⟩ := src.rest live
        obtain ⟨head', m', run, holds, brk, frame⟩ := h.append (named _ List.mem_cons_self)
        have same : ∀ j ∈ i :: l, m'.nodes j = m.nodes j := fun j mem => frame j (apart j mem) (src.bound j mem).ne
        have lt : e.s < 2 ^ 31 - 1 := by
          rw [size]
          rw [List.length_cons] at small
          omega
        have apart' : ∀ j ∈ l, j ∉ c ++ [m.brk] := by
          intro j mem
          rw [List.mem_append, List.mem_singleton, not_or]
          exact ⟨apart j (List.mem_cons_of_mem _ mem), (rest.bound j mem).ne⟩
        obtain ⟨e', m'', c', run', holds', change⟩ := ih (e := { e with head := head', s := e.s + 1 }) holds
          (by rw [size, List.length_append, List.length_singleton]; rfl)
          (rest.frame (fun j mem => same j (List.mem_cons_of_mem _ mem)) (brk ▸ Nat.le_succ _)) apart'
          (fun p mem => named p (List.mem_cons_of_mem _ mem))
          (by rw [List.length_append, List.length_singleton]; rw [List.length_cons] at small; omega)
          (Nat.lt_of_succ_lt_succ enough)
        refine ⟨e', m'', c', ?_, ?_, ?_, ?_, ?_⟩
        · rw [copyLoop, read_eq live, ok_bind, run, ok_bind]
          dsimp only
          rw [read_eq ((same i List.mem_cons_self).trans live), ok_bind, incr_of_lt lt, ok_bind]
          exact run'
        · rw [List.append_assoc] at holds'
          exact holds'
        · intro j out lt
          have out' : j ∉ c ++ [m.brk] := by
            rw [List.mem_append, List.mem_singleton, not_or]
            exact ⟨out, lt.ne⟩
          exact (change.frame j out' (lt.trans (brk ▸ Nat.lt_succ_self _))).trans (frame j out lt.ne)
        · exact (brk ▸ Nat.le_succ _ : m.brk ≤ m'.brk).trans change.brk
        · intro j mem
          rcases change.sub j mem with mem | new
          · rcases List.mem_append.1 mem with mem | mem
            · exact .inl mem
            · exact .inr (List.mem_singleton.1 mem).ge
          · exact .inr ((brk ▸ Nat.le_succ _ : m.brk ≤ m'.brk).trans new)

/-- The way to the node at a position. -/
lemma walk (h : Describes m e is vals) {k : Nat} (lt : k < vals.length) :
    ∃ a i b n, is = a ++ i :: b ∧ a.length = k ∧ m.nodes i = some n ∧ vals[k]? = some n.p ∧
      (a ++ b).map m.val = (vals.eraseIdx k).map some ∧ m.walkTo k none e.head = .ok (a.getLast?, some i) := by
  obtain ⟨a, i, b, n, rfl, rfl, live, at', rest⟩ := h.split lt
  obtain ⟨t, seg, rfl, -⟩ := seg_append.1 h.chain
  have walk := walkTo_spec seg (fun j mem => (h.live (List.mem_append_left _ mem)).imp fun _ live => live.1) none
  rw [lastOr_none] at walk
  exact ⟨a, i, b, n, rfl, rfl, live, at', rest, walk⟩

/-- There is nothing at a position out of range. -/
lemma at_eq_none (h : Describes m e is vals) (out : pos < 0 ∨ e.s ≤ pos) : Lists.at vals pos = none := by
  rw [Lists.at]
  split_ifs with neg
  · rfl
  · have le := out.resolve_left neg
    rw [h.size] at le
    exact List.getElem?_eq_none (by omega)

/-- A position that is not out of range is one of the list. -/
lemma lt_of_not_out (h : Describes m e is vals) (inside : ¬ (pos < 0 ∨ e.s ≤ pos)) :
    ¬ pos < 0 ∧ pos.toNat < vals.length := by
  rw [h.size] at inside
  omega

/-- `get` returns the person at a position, or throws. -/
lemma get_spec (h : Describes m e is vals) (named : ∀ p ∈ vals, p.Named) : get m e pos = .ok (Lists.at vals pos) := by
  rw [get]
  split_ifs with out
  · rw [at_eq_none h out]
  · obtain ⟨pos', lt⟩ := lt_of_not_out h out
    obtain ⟨a, i, b, n, -, -, live, at', -, walk⟩ := walk h lt
    rw [walk, ok_bind]
    dsimp only
    rw [read_eq live, ok_bind, (named _ (List.mem_of_getElem? at')).copy, ok_bind, Lists.at, if_neg pos', at']

/-- The elements after the first are removed as they should be. -/
lemma remove_spec (h : Describes m e is vals) (named : ∀ p ∈ vals, p.Named) (good : pos = 0 → vals = []) :
    ∃ e' m' is', remove m e pos = .ok (Lists.at vals pos, e', m') ∧
      Describes m' e' is' (if pos < 0 then vals else vals.eraseIdx pos.toNat) ∧ Change m m' is is' := by
  rw [remove]
  split_ifs with out neg
  · rw [at_eq_none h out]
    exact ⟨e, m, is, rfl, h, fun _ _ _ => rfl, le_rfl, fun _ mem => .inl mem⟩
  · have le := out.resolve_left neg
    rw [h.size] at le
    rw [at_eq_none h out, List.eraseIdx_of_length_le (by omega)]
    exact ⟨e, m, is, rfl, h, fun _ _ _ => rfl, le_rfl, fun _ mem => .inl mem⟩
  · exact absurd (.inl (by assumption)) out
  · obtain ⟨pos', lt⟩ := lt_of_not_out h out
    obtain ⟨a, i, b, n, rfl, len, live, at', rest, walk⟩ := walk h lt
    -- there is a node before the one that is removed
    obtain ⟨x, before⟩ : ∃ x, a.getLast? = some x := by
      cases a with
      | nil =>
        have zero : pos = 0 := by
          rw [List.length_nil] at len
          omega
        rw [good zero] at lt
        exact absurd lt (Nat.not_lt_zero _)
      | cons j a => exact ⟨_, List.getLast?_cons⟩
    have memx : x ∈ a := List.mem_of_getLast? before
    obtain ⟨nx, livex, -⟩ := h.live (List.mem_append_left _ memx)
    have ne : i ≠ x := by
      rintro rfl
      have nd := h.nodup
      rw [List.nodup_middle, List.nodup_cons] at nd
      exact nd.1 (List.mem_append_left _ memx)
    have holds := h.unlink live before livex rest
    refine ⟨⟨e.head, if some i = e.tail then some x else e.tail, e.s - 1⟩, _, a ++ b, ?_, ⟨holds, ?_⟩, ?_, le_rfl, ?_⟩
    · rw [walk, ok_bind]
      dsimp only
      rw [read_eq live, ok_bind, (named _ (List.mem_of_getElem? at')).copy, ok_bind, before]
      dsimp only
      rw [write_eq livex, ok_bind, delete_eq ((Function.update_of_ne ne ..).trans live), ok_bind, Lists.at, if_neg pos',
        at']
    · show e.s - 1 = _
      rw [h.size, List.length_eraseIdx_of_lt lt]
      omega
    · intro j out _
      rw [List.mem_append, List.mem_cons, not_or, not_or] at out
      refine (Function.update_of_ne out.2.1 ..).trans (Function.update_of_ne ?_ ..)
      exact fun same => out.1 (same ▸ memx)
    · intro j mem
      simp only [List.mem_append, List.mem_cons] at mem ⊢
      tauto

/-- After the first element has been removed, `head` points to a node that is deleted. -/
lemma remove_zero (h : Describes m e is vals) (named : ∀ p ∈ vals, p.Named) (ne : vals ≠ []) :
    ∃ e' m' i, remove m e 0 = .ok (Lists.at vals 0, e', m') ∧ e'.head = some i ∧ m'.nodes i = none := by
  have lt : 0 < vals.length := List.length_pos_iff.2 ne
  obtain ⟨a, i, b, n, rfl, len, live, at', rest, walk⟩ := walk h lt
  have nil : a = [] := List.length_eq_zero_iff.1 len
  subst nil
  have head : e.head = some i := h.chain.1
  have inside : ¬ ((0 : Int) < 0 ∨ e.s ≤ 0) := by
    rw [h.size]
    omega
  refine ⟨⟨e.head, if some i = e.tail then none else e.tail, e.s - 1⟩,
    ⟨Function.update (Function.update m.nodes i (some { n with next := n.next })) i none, m.brk⟩, i, ?_, head,
    Function.update_self ..⟩
  rw [remove, if_neg inside]
  show (m.walkTo 0 none e.head >>= _) = _
  rw [walk, ok_bind]
  dsimp only
  rw [read_eq live, ok_bind, (named _ (List.mem_of_getElem? at')).copy, ok_bind, List.getLast?_nil]
  dsimp only
  rw [head, write_eq live, ok_bind, delete_eq (Function.update_self ..), ok_bind]
  have first : Lists.at vals 0 = some n.p := at'
  rw [first]

end Elenco

/-- The lists of a program describe mathematical lists, and share no nodes. -/
structure World.Holds (w : World) (a : Lists) (own : Nat → List Nat) : Prop where
  made : w.made = a.made
  lists : ∀ k, Elenco.Describes w.mem (w.objs k) (own k) (a.lists k)
  apart : ∀ j k, j ≠ k → ∀ i ∈ own j, i ∉ own k
  small : ∀ k, (a.lists k).length < 2 ^ 31
  named : ∀ k, ∀ p ∈ a.lists k, p.Named
  fresh : ∀ k, a.made ≤ k → a.lists k = []

/-- The calls that the program may make. -/
def ElencoOp.Named : ElencoOp → Prop
  | .add _ p => p.Named
  | _ => True

/-- The calls that keep the list: no first element is removed, and no list outgrows its counter. -/
def ElencoOp.Keeps (a : Lists) : ElencoOp → Prop
  | .add k _ => k < a.made → (a.lists k).length < 2 ^ 31 - 1
  | .remove k pos => k < a.made → pos = 0 → a.lists k = []
  | _ => True

namespace World
open Mem Elenco

variable {w w' : World} {a : Lists} {own : Nat → List Nat} {op : ElencoOp} {k : Nat}

/-- At the start there are no lists. -/
lemma holds_init : init.Holds .init fun _ => [] :=
  ⟨rfl, fun _ => ⟨Mem.Holds.nil _, rfl⟩, fun _ _ _ _ mem => absurd mem List.not_mem_nil, fun _ => Nat.two_pow_pos 31,
    fun _ _ mem => absurd mem List.not_mem_nil, fun _ _ => rfl⟩

/-- A call on one list leaves the others alone. -/
lemma Holds.update (h : w.Holds a own) {m' : Mem} {e' : Elenco} {is' : List Nat} {vals' : List Persona} {made : Nat}
    (describes : Elenco.Describes m' e' is' vals') (change : Change w.mem m' (own k) is') (small : vals'.length < 2 ^ 31)
    (named : ∀ p ∈ vals', p.Named) (fresh : ∀ j, made ≤ j → j ≠ k ∧ a.made ≤ j) :
    World.Holds ⟨m', Function.update w.objs k e', made⟩ ⟨Function.update a.lists k vals', made⟩
      (Function.update own k is') := by
  refine ⟨rfl, ?_, ?_, ?_, ?_, ?_⟩
  · intro j
    by_cases same : j = k
    · subst same
      simp only [Function.update_self]
      exact describes
    · simp only [Function.update_of_ne same]
      have old := h.lists j
      refine ⟨old.toHolds.frame ?_ change.brk, old.size⟩
      exact fun i mem => change.frame i (h.apart j k same i mem) (old.bound i mem)
  · intro j l ne i mem
    have new (j : Nat) (ne : j ≠ k) (mem : i ∈ own j) : i ∉ is' := by
      intro mem'
      rcases change.sub i mem' with mem' | ge
      · exact h.apart j k ne i mem mem'
      · exact absurd ((h.lists j).bound i mem) ge.not_gt
    by_cases same : j = k
    · subst same
      rw [Function.update_self] at mem
      rw [Function.update_of_ne (Ne.symm ne)]
      exact fun mem' => new l (Ne.symm ne) mem' mem
    · rw [Function.update_of_ne same] at mem
      by_cases same' : l = k
      · subst same'
        rw [Function.update_self]
        exact new j same mem
      · rw [Function.update_of_ne same']
        exact h.apart j l ne i mem
  · intro j
    by_cases same : j = k
    · subst same
      simp only [Function.update_self]
      exact small
    · simp only [Function.update_of_ne same]
      exact h.small j
  · intro j
    by_cases same : j = k
    · subst same
      simp only [Function.update_self]
      exact named
    · simp only [Function.update_of_ne same]
      exact h.named j
  · intro j le
    obtain ⟨ne, le'⟩ := fresh j le
    simp only [Function.update_of_ne ne]
    exact h.fresh j le'

/-- A call on a list that was made. -/
lemma Holds.update_made (h : w.Holds a own) (lt : k < w.made) {m' : Mem} {e' : Elenco} {is' : List Nat}
    {vals' : List Persona} (describes : Elenco.Describes m' e' is' vals') (change : Change w.mem m' (own k) is')
    (small : vals'.length < 2 ^ 31) (named : ∀ p ∈ vals', p.Named) :
    World.Holds ⟨m', Function.update w.objs k e', w.made⟩ ⟨Function.update a.lists k vals', a.made⟩
      (Function.update own k is') := by
  rw [h.made]
  refine h.update describes change small named fun j le => ⟨?_, le⟩
  rintro rfl
  exact absurd (h.made ▸ lt) le.not_gt

/-- One call keeps the lists together, and returns what it should. -/
lemma Holds.step (h : w.Holds a own) (named : op.Named) (keeps : op.Keeps a) :
    ∃ w' own', w.step op = .ok ((a.step op).1, w') ∧ w'.Holds (a.step op).2 own' := by
  have same : (∃ k ∈ op.obj, w.made ≤ k) ↔ ∃ k ∈ op.obj, a.made ≤ k := by rw [h.made]
  rw [World.step.eq_def, Lists.step.eq_def]
  by_cases unmade : ∃ k ∈ op.obj, w.made ≤ k
  · rw [if_pos unmade, if_pos (same.1 unmade)]
    exact ⟨w, own, rfl, h⟩
  · rw [if_neg unmade, if_neg fun there => unmade (same.2 there)]
    have made : ∀ k, op.obj = some k → k < w.made := fun k eq => Nat.lt_of_not_le fun le => unmade ⟨k, eq, le⟩
    cases op with
    | new =>
      refine ⟨_, own, rfl, ⟨?_, h.lists, h.apart, h.small, h.named, fun k le => h.fresh k (Nat.le_of_succ_le le)⟩⟩
      exact congrArg (· + 1) h.made
    | copy k =>
      have nil : own w.made = [] := by
        have len := (h.lists w.made).length
        rw [h.fresh w.made h.made.ge] at len
        exact List.length_eq_zero_iff.1 len
      obtain ⟨e', m', is', run, describes, change⟩ := copyLoop_spec (Mem.Holds.nil w.mem) (e := .empty) rfl
        (h.lists k).toHolds (fun _ _ => List.not_mem_nil) (h.named k) (by simpa using h.small k) (h.lists k).length_lt
      refine ⟨⟨m', Function.update w.objs w.made e', w.made + 1⟩, Function.update own w.made is', ?_, ?_⟩
      · dsimp only
        rw [Elenco.copy, run]
        rfl
      · rw [← h.made]
        refine h.update describes (nil ▸ change) (by simpa using h.small k) (h.named k) fun j le => ⟨?_, ?_⟩
        · exact (Nat.lt_of_succ_le le).ne'
        · exact h.made ▸ Nat.le_of_succ_le le
    | add k p =>
      have lt := made k rfl
      have small := keeps (h.made ▸ lt)
      obtain ⟨e', m', is', run, describes, change⟩ := add_spec (h.lists k) named small
      refine ⟨_, _, ?_, h.update_made lt describes change ?_ ?_⟩
      · dsimp only
        rw [run]
        rfl
      · rw [List.length_append, List.length_singleton]
        omega
      · exact fun q mem => (List.mem_append.1 mem).elim (h.named k q) fun new => List.mem_singleton.1 new ▸ named
    | get k pos =>
      refine ⟨w, own, ?_, h⟩
      dsimp only
      rw [get_spec (h.lists k) (h.named k)]
      rfl
    | remove k pos =>
      have lt := made k rfl
      obtain ⟨e', m', is', run, describes, change⟩ := remove_spec (h.lists k) (h.named k) (keeps (h.made ▸ lt))
      refine ⟨⟨m', Function.update w.objs k e', w.made⟩, Function.update own k is', ?_, ?_⟩
      · dsimp only
        rw [run]
        rfl
      have small : (if pos < 0 then a.lists k else (a.lists k).eraseIdx pos.toNat).length < 2 ^ 31 := by
        split_ifs
        · exact h.small k
        · exact (List.length_eraseIdx_le _ _).trans_lt (h.small k)
      have holds := h.update_made lt describes change small ?_
      · dsimp only at holds ⊢
        split_ifs at holds ⊢
        · rwa [Function.update_eq_self] at holds
        · exact holds
      · intro p mem
        split_ifs at mem
        · exact h.named k p mem
        · exact h.named k p (List.mem_of_mem_eraseIdx mem)
    | clear k =>
      obtain ⟨m', run, change⟩ := clear_spec (h.lists k)
      refine ⟨⟨m', Function.update w.objs k .empty, w.made⟩, Function.update own k [], ?_, ?_⟩
      · dsimp only
        rw [run]
        rfl
      exact h.update_made (made k rfl) ⟨Mem.Holds.nil m', rfl⟩ change (by decide) nofun
    | size k =>
      refine ⟨w, own, ?_, h⟩
      dsimp only
      rw [Elenco.size.eq_def, (h.lists k).size]

end World

/-- `head`, `tail` and `s` describe a list: its elements are in the nodes from `head` on, which are all there, `tail` is
the last of them, and `s` is their number. -/
def Elenco.IsList (m : Mem) (e : Elenco) (vals : List Persona) : Prop :=
  ∃ is, Chain m.next e.head is ∧ is.map m.val = vals.map some ∧ e.tail = is.getLast? ∧ e.s = vals.length

/-- Every call of a run returns what the mathematical list says, and leaves lists that describe the mathematical ones. -/
def Agrees : World → Lists → List ElencoOp → Prop
  | _, _, [] => True
  | w, a, op :: ops =>
    ∃ w', w.step op = .ok ((a.step op).1, w') ∧ (∀ k, (w'.objs k).IsList w'.mem ((a.step op).2.lists k)) ∧
      Agrees w' (a.step op).2 ops

/-- Every call of a run keeps the lists. -/
def AllKeep : Lists → List ElencoOp → Prop
  | _, [] => True
  | a, op :: ops => op.Keeps a ∧ AllKeep (a.step op).2 ops

namespace World
open Mem Elenco

variable {w w' : World} {a : Lists} {own : Nat → List Nat} {op : ElencoOp} {k : Nat}

/-- The list with the number `k` is a list. -/
lemma Holds.isList (h : w.Holds a own) (k : Nat) : (w.objs k).IsList w.mem (a.lists k) :=
  ⟨own k, (h.lists k).chain, (h.lists k).values, (h.lists k).tail, (h.lists k).size⟩

/-- A list whose head is deleted is no list. -/
lemma not_isList {m : Mem} {e : Elenco} {i : Nat} {vals : List Persona} (head : e.head = some i)
    (deleted : m.nodes i = none) : ¬ e.IsList m vals := by
  rintro ⟨is, chain, values, -, -⟩
  rw [head] at chain
  cases is with
  | nil => cases chain
  | cons j is =>
    cases chain.1
    have first : m.val i ∈ vals.map some := values ▸ List.mem_cons_self
    rw [Mem.val, deleted] at first
    obtain ⟨p, -, eq⟩ := List.mem_map.1 first
    cases eq

/-- A call that does not keep the list goes wrong. -/
lemma Holds.keeps_of_step (h : w.Holds a own) (named : op.Named) (step : w.step op = .ok ((a.step op).1, w'))
    (lists : ∀ k, (w'.objs k).IsList w'.mem ((a.step op).2.lists k)) : op.Keeps a := by
  cases op with
  | new => trivial
  | copy k => trivial
  | get k pos => trivial
  | clear k => trivial
  | size k => trivial
  | add k p =>
    intro lt
    by_contra large
    have small := h.small k
    have made : ¬ ∃ j ∈ (ElencoOp.add k p).obj, w.made ≤ j := by
      rintro ⟨j, same, le⟩
      cases same
      exact absurd (h.made ▸ lt) le.not_gt
    rw [World.step.eq_def, if_neg made] at step
    dsimp only at step
    rw [add_overflow (h.lists k) named (by omega)] at step
    cases step
  | remove k pos =>
    rintro lt rfl
    by_contra ne
    have made : ¬ ∃ j ∈ (ElencoOp.remove k 0).obj, w.made ≤ j := by
      rintro ⟨j, same, le⟩
      cases same
      exact absurd (h.made ▸ lt) le.not_gt
    obtain ⟨e', m', i, run, head, deleted⟩ := remove_zero (h.lists k) (h.named k) ne
    rw [World.step.eq_def, if_neg made] at step
    dsimp only at step
    rw [run] at step
    obtain ⟨-, rfl⟩ := Prod.mk.inj (Except.ok.inj step)
    exact not_isList ((congrArg Elenco.head (Function.update_self k e' w.objs)).trans head) deleted (lists k)

/-- From any such state, by induction on the calls. -/
lemma Holds.agrees_iff (h : w.Holds a own) {ops : List ElencoOp} (named : ∀ op ∈ ops, op.Named) :
    Agrees w a ops ↔ AllKeep a ops := by
  induction ops generalizing w a own with
  | nil => exact Iff.rfl
  | cons op ops ih =>
    have first := named op List.mem_cons_self
    have rest := fun op mem => named op (List.mem_cons_of_mem _ mem)
    constructor
    · rintro ⟨w', step, lists, later⟩
      have keeps := h.keeps_of_step first step lists
      obtain ⟨w'', own', step', h'⟩ := h.step first keeps
      cases step.symm.trans step'
      exact ⟨keeps, (ih h' rest).1 later⟩
    · rintro ⟨keeps, later⟩
      obtain ⟨w', own', step, h'⟩ := h.step first keeps
      exact ⟨w', step, h'.isList, (ih h' rest).2 later⟩

end World

/-- The calls of a program on its lists, with persons that have both names, return what mathematical lists return, and
leave lists that describe these, if and only if no call removes the first element of a list, or adds to a list that has
as many elements as its counter can count. -/
theorem elenco_refines_iff {ops : List ElencoOp} (named : ∀ op ∈ ops, op.Named) :
    Agrees .init .init ops ↔ AllKeep .init ops :=
  World.holds_init.agrees_iff named

/-- Elements are removed from the end. -/
theorem elenco_refines_iff_end :
    Agrees .init .init [.new, .add 0 ⟨some [65], some [66]⟩, .add 0 ⟨some [67], some [68]⟩, .remove 0 1, .copy 0] := by
  refine (elenco_refines_iff (by simp [ElencoOp.Named, Persona.Named])).2 ?_
  refine ⟨trivial, fun _ => ?_, fun _ => ?_, fun _ no => ?_, trivial, trivial⟩
  · decide
  · decide
  · cases no

/-- The only element is removed, and `head` is left pointing to its node. -/
theorem not_agrees_of_remove : ¬ Agrees .init .init [.new, .add 0 ⟨some [65], some [66]⟩, .remove 0 0] := by
  rintro ⟨w₁, new, -, w₂, add, -, w₃, remove, lists, -⟩
  cases new
  cases add
  cases remove
  exact World.not_isList (i := 0) rfl rfl (lists 0)

end PDS.Cpp
