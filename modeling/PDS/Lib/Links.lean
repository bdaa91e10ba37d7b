import Mathlib.Tactic
import Mathlib.Data.List.Nodup

/-!
# Linked lists in a store

Singly linked lists threaded through a store: a cell `i : ι` has a link `next i : Option ι`, and a
list is a head pointer. `Seg next h l t` says that following `next` from `h` visits exactly the cells
of `l` and then arrives at `t`; `Chain next h l` is the null-terminated case.

The operations are the idioms of C code on such lists:
* `walk` is `while (node != NULL && go(node)) { prev = node; node = node->next; }`;
* `pick` is the same traversal with a running best candidate and its predecessor;
* `setLink` is `if (prev == NULL) head = v; else prev->next = v;`.

All three take the store as a function, so a program instantiates them with the projection of its own
node record. The loops carry fuel; `walk_spec` and `pick_spec` show that the length of the chain is
enough of it.
-/

namespace PDS.Links

variable {ι : Type}

/-- The cells of `l` are linked from `h` to `t`. -/
def Seg (next : ι → Option ι) : Option ι → List ι → Option ι → Prop
  | h, [], t => h = t
  | h, i :: l, t => h = some i ∧ Seg next (next i) l t

/-- A null-terminated list. -/
abbrev Chain (next : ι → Option ι) (h : Option ι) (l : List ι) : Prop := Seg next h l none

/-- An empty segment ends where it begins. -/
@[simp] lemma seg_nil {next : ι → Option ι} {h t} : Seg next h [] t ↔ h = t := Iff.rfl

/-- A segment begins with its first node. -/
@[simp] lemma seg_cons {next : ι → Option ι} {h i l t} :
    Seg next h (i :: l) t ↔ h = some i ∧ Seg next (next i) l t := Iff.rfl

/-- A segment of a concatenation is two segments that meet. -/
lemma seg_append {next : ι → Option ι} {h l l' t} :
    Seg next h (l ++ l') t ↔ ∃ m, Seg next h l m ∧ Seg next m l' t := by
  induction l generalizing h with
  | nil => simp
  | cons i l ih => simp [ih, and_assoc]

/-- A segment only depends on the links of its own cells. -/
lemma Seg.frame {next next' : ι → Option ι} {h l t}
    (sg : Seg next h l t) (eq : ∀ i ∈ l, next' i = next i) : Seg next' h l t := by
  induction l generalizing h with
  | nil => exact sg
  | cons i l ih =>
    obtain ⟨e, sg⟩ := sg
    refine ⟨e, ?_⟩
    rw [eq i (by simp)]
    exact ih sg (fun j hj => eq j (by simp [hj]))

/-- The cells of a null-terminated list are determined by its head. -/
lemma Chain.unique {next : ι → Option ι} {h l l'}
    (c : Chain next h l) (c' : Chain next h l') : l = l' := by
  induction l generalizing h l' with
  | nil =>
    cases l' with
    | nil => rfl
    | cons j l' =>
      have e : h = none := c
      rw [e] at c'
      cases c'.1
  | cons i l ih =>
    obtain ⟨e, c⟩ := c
    cases l' with
    | nil =>
      have e' : h = none := c'
      rw [e'] at e
      cases e
    | cons j l' =>
      obtain ⟨e', c'⟩ := c'
      rw [e] at e'
      cases e'
      rw [ih c c']

/-- The head of a segment is its first cell, or its end when it is empty. -/
lemma Seg.head_eq {next : ι → Option ι} {h l} (c : Chain next h l) : h = l.head? := by
  cases l with
  | nil => exact c
  | cons i l => exact c.1

section Update

variable [DecidableEq ι]

/-- Writing the link of a cell outside a segment does not change the segment. -/
lemma Seg.update {next : ι → Option ι} {h l t i v}
    (sg : Seg next h l t) (ni : i ∉ l) : Seg (Function.update next i v) h l t := by
  apply sg.frame
  intro j hj
  apply Function.update_of_ne
  rintro rfl
  exact ni hj

/-- The head and the links after `if (prev == NULL) head = v; else prev->next = v;`. -/
def setLink (prev v : Option ι) (head : Option ι) (next : ι → Option ι) :
    Option ι × (ι → Option ι) :=
  match prev with
  | none => (v, next)
  | some p => (head, Function.update next p v)

/-- Relinking the last cell of a segment redirects its end. -/
lemma Seg.setLink {next : ι → Option ι} {h a m v}
    (sg : Seg next h a m) (nd : a.Nodup) :
    Seg (setLink a.getLast? v h next).2 (setLink a.getLast? v h next).1 a v := by
  induction a using List.reverseRecOn with
  | nil => rfl
  | append_singleton a p =>
    have np : p ∉ a := by
      have := List.nodup_append.1 nd
      intro hp
      exact this.2.2 p hp p (by simp) rfl
    obtain ⟨m', sa, e, -⟩ := seg_append.1 sg
    rw [List.getLast?_concat]
    apply seg_append.2
    exact ⟨m', sa.update np, e, by simp [Links.setLink]⟩

/-- Relinking inside one list leaves the cells of another alone. -/
lemma Seg.setLink_frame {next : ι → Option ι} {h h' t v} {a l : List ι}
    (sg : Seg next h' l t) (dj : ∀ i ∈ a, i ∉ l) :
    Seg (Links.setLink a.getLast? v h next).2 h' l t := by
  rcases e : a.getLast? with _ | p
  · exact sg
  · exact sg.update (dj p (List.mem_of_getLast? e))

end Update

/-- `while (node != NULL && go(node)) { prev = node; node = node->next; }`, giving `(prev, node)`.
`none` stands for a loop that has not ended within the fuel. -/
def walk (next : ι → Option ι) (go : ι → Bool) :
    Nat → Option ι → Option ι → Option (Option ι × Option ι)
  | 0, _, _ => none
  | _ + 1, prev, none => some (prev, none)
  | n + 1, prev, some i => if go i then walk next go n (some i) (next i) else some (prev, some i)

/-- The last cell of a non-empty list, or the value the loop started with. -/
def lastOr (prev : Option ι) (l : List ι) : Option ι := l.getLast?.or prev

/-- The last of no nodes is the one before them. -/
@[simp] lemma lastOr_nil (prev : Option ι) : lastOr prev [] = prev := rfl

/-- The last of the nodes is looked for behind the first. -/
@[simp] lemma lastOr_cons (prev : Option ι) (i : ι) (l : List ι) :
    lastOr prev (i :: l) = lastOr (some i) l := by
  cases l with
  | nil => rfl
  | cons j l => simp [lastOr, List.getLast?_cons]

/-- With none before them, it is the last of the list. -/
@[simp] lemma lastOr_none (l : List ι) : lastOr none l = l.getLast? := by
  simp [lastOr]

/-- The loop splits the list at the first cell where `go` fails. -/
lemma walk_spec {next : ι → Option ι} {n h l} (go : ι → Bool) (p : Option ι)
    (c : Chain next h l) (hn : l.length < n) :
    ∃ a b, l = a ++ b ∧ (∀ i ∈ a, go i) ∧ (∀ i, b.head? = some i → ¬ go i) ∧
      walk next go n p h = some (lastOr p a, b.head?) := by
  induction n generalizing p h l with
  | zero => omega
  | succ n ih =>
    cases l with
    | nil =>
      have e : h = none := c
      exact ⟨[], [], rfl, by simp, by simp, by simp [walk, e]⟩
    | cons i l =>
      obtain ⟨rfl, c⟩ := c
      by_cases g : go i
      · obtain ⟨a, b, rfl, ha, hb, e⟩ := ih (some i) c (by simpa using hn)
        refine ⟨i :: a, b, rfl, ?_, hb, ?_⟩
        · intro j hj
          rcases List.mem_cons.1 hj with rfl | hj
          · exact g
          · exact ha j hj
        · simp [walk, g, e]
      · exact ⟨[], i :: l, rfl, by simp, by simp [g], by simp [walk, g]⟩

/-- Searching a cell and relinking its predecessor takes it out of the list. -/
lemma Chain.unlink [DecidableEq ι] {next : ι → Option ι} {n h l i} (c : Chain next h l) (nd : l.Nodup)
    (hi : i ∈ l) (hn : l.length < n) :
    ∃ a b, l = a ++ i :: b ∧ walk next (fun j => j != i) n none h = some (a.getLast?, some i) ∧
      Chain (setLink a.getLast? (next i) h next).2 (setLink a.getLast? (next i) h next).1 (l.erase i) := by
  obtain ⟨a, b, rfl, ha, hb, e⟩ := walk_spec (fun j => j != i) none c hn
  rw [lastOr_none] at e
  have na : i ∉ a := fun h => by simpa using ha i h
  cases b with
  | nil => exact absurd (by simpa using hi) na
  | cons j b =>
    have ej : j = i := by simpa using hb j rfl
    subst ej
    refine ⟨a, b, rfl, e, ?_⟩
    obtain ⟨nda, -, dj⟩ := List.nodup_append.1 nd
    have djb : ∀ x ∈ a, x ∉ b := fun x hx hb => dj x hx x (by simp [hb]) rfl
    obtain ⟨m, sa, -, sb⟩ := seg_append.1 c
    have er : (a ++ j :: b).erase j = a ++ b := by
      rw [List.erase_append_right _ na, List.erase_cons_head]
    rw [er]
    exact seg_append.2 ⟨_, sa.setLink nda, sb.setLink_frame djb⟩

/-- `while (node != NULL) { if (test(node, best)) { prevSelected = prev; best = key(node);
selected = node; } prev = node; node = node->next; }`, giving `(prevSelected, selected)`. -/
def pick {σ : Type} (next : ι → Option ι) (test : ι → σ → Bool) (key : ι → σ) :
    Nat → Option ι → Option ι → Option (Option ι × ι) → σ → Option (Option (Option ι × ι))
  | 0, _, _, _, _ => none
  | _ + 1, _, none, sel, _ => some sel
  | n + 1, prev, some i, sel, best =>
    if test i best then pick next test key n (some i) (next i) (some (prev, i)) (key i)
    else pick next test key n (some i) (next i) sel best

/-- The candidate of a `pick` loop that looks for the least key of the cells that are good, in the order `lt`: it comes
before all good cells, and the cells before it in the list have a larger key. -/
lemma pick_least {σ : Type} {next : ι → Option ι} {n h l} (lt : σ → σ → Bool) (good : ι → Bool) (key : ι → σ)
    (p : Option ι) (s : Option (Option ι × ι)) (k : σ) (trans : ∀ x y z, lt x y → lt y z → lt x z)
    (tri : ∀ x y z, lt x z → ¬ lt y z → lt x y) (c : Chain next h l) (hn : l.length < n) :
    (pick next (fun i best => good i && lt (key i) best) key n p h s k = some s ∧ ∀ i ∈ l, good i → ¬ lt (key i) k) ∨
    ∃ a i b, l = a ++ i :: b ∧ good i ∧ lt (key i) k ∧
      pick next (fun i best => good i && lt (key i) best) key n p h s k = some (some (lastOr p a, i)) ∧
      (∀ j ∈ a, good j → lt (key i) (key j)) ∧ ∀ j ∈ b, good j → ¬ lt (key j) (key i) := by
  induction n generalizing p h l s k with
  | zero => omega
  | succ n ih =>
    cases l with
    | nil =>
      have e : h = none := c
      exact .inl ⟨by simp [pick, e], by simp⟩
    | cons i l =>
      obtain ⟨rfl, c⟩ := c
      have hn' : l.length < n := by simpa using hn
      by_cases t : good i ∧ lt (key i) k
      · -- the cell is the best so far
        have test : (good i && lt (key i) k) = true := Bool.and_eq_true_iff.2 t
        rw [pick, if_pos test]
        rcases ih (some i) (some (p, i)) (key i) c hn' with ⟨e, none⟩ | ⟨a, j, b, rfl, gj, less, e, before, after⟩
        · exact .inr ⟨[], i, l, rfl, t.1, t.2, by simp [e], by simp, none⟩
        · refine .inr ⟨i :: a, j, b, rfl, gj, trans _ _ _ less t.2, by simp [e], ?_, after⟩
          exact List.forall_mem_cons.2 ⟨fun _ => less, before⟩
      · have test : ¬ (good i && lt (key i) k) = true := fun t' => t (Bool.and_eq_true_iff.1 t')
        rw [pick, if_neg test]
        rcases ih (some i) s k c hn' with ⟨e, none⟩ | ⟨a, j, b, rfl, gj, less, e, before, after⟩
        · exact .inl ⟨e, List.forall_mem_cons.2 ⟨fun g l => t ⟨g, l⟩, none⟩⟩
        · refine .inr ⟨i :: a, j, b, rfl, gj, less, by simp [e], ?_, after⟩
          exact List.forall_mem_cons.2 ⟨fun g => tri _ _ _ less fun l => t ⟨g, l⟩, before⟩

/-- What a search for a cell of size at least `n` reports: nothing because no cell is that large, or
a cell that is, with its predecessor. -/
def Fits (l : List ι) (size : ι → Nat) (n : Nat) (r : Option (Option (Option ι × ι))) : Prop :=
  (r = some none ∧ ∀ i ∈ l, size i < n) ∨
  ∃ p s q, l = p ++ s :: q ∧ n ≤ size s ∧ r = some (some (p.getLast?, s))

/-- The first cell that is large enough. -/
def firstFit (next : ι → Option ι) (size : ι → Nat) (n fuel : Nat) (head : Option ι) :
    Option (Option (Option ι × ι)) := do
  let (prev, node) ← walk next (fun i => ! n ≤ size i) fuel none head
  some (node.map (fun i => (prev, i)))

/-- The smallest cell that is large enough, among those below `top`. -/
def bestFit (next : ι → Option ι) (size : ι → Nat) (top n fuel : Nat) (head : Option ι) :
    Option (Option (Option ι × ι)) :=
  pick next (fun i best => n ≤ size i && size i < best) size fuel none head none top

/-- The largest cell that is large enough. -/
def worstFit (next : ι → Option ι) (size : ι → Nat) (n fuel : Nat) (head : Option ι) :
    Option (Option (Option ι × ι)) :=
  pick next (fun i best => n ≤ size i && best < size i) size fuel none head none 0

section Fit

variable {next : ι → Option ι} {size : ι → Nat} {fuel : Nat} {head : Option ι} {l : List ι}

/-- `firstFit` meets the specification. -/
lemma firstFit_fits (n : Nat) (c : Chain next head l) (hn : l.length < fuel) :
    Fits l size n (firstFit next size n fuel head) := by
  obtain ⟨a, b, rfl, ha, hb, e⟩ := walk_spec (fun i => ! n ≤ size i) none c hn
  cases b with
  | nil =>
    refine .inl ⟨by simp [firstFit, e], ?_⟩
    intro i hi
    simpa using ha i (by simpa using hi)
  | cons s q =>
    have hs : n ≤ size s := by simpa using hb s rfl
    exact .inr ⟨a, s, q, rfl, hs, by simp [firstFit, e]⟩

/-- A search for the least size in the order `lt`, when all sizes come before the first value. -/
lemma pick_fits (lt : Nat → Nat → Bool) (k n : Nat) (trans : ∀ x y z, lt x y → lt y z → lt x z)
    (tri : ∀ x y z, lt x z → ¬ lt y z → lt x y) (c : Chain next head l) (hn : l.length < fuel)
    (all : ∀ i ∈ l, lt (size i) k) :
    Fits l size n (pick next (fun i best => n ≤ size i && lt (size i) best) size fuel none head none k) := by
  rcases pick_least lt (fun i => n ≤ size i) size none none k trans tri c hn with
    ⟨e, none⟩ | ⟨p, s, q, rfl, fits, -, e, -⟩
  · refine .inl ⟨e, fun i hi => ?_⟩
    by_contra large
    exact none i hi (by simpa using large) (all i hi)
  · rw [lastOr_none] at e
    exact .inr ⟨p, s, q, rfl, by simpa using fits, e⟩

/-- `bestFit` meets the specification. -/
lemma bestFit_fits {top : Nat} (n : Nat) (c : Chain next head l) (hn : l.length < fuel)
    (small : ∀ i ∈ l, size i < top) : Fits l size n (bestFit next size top n fuel head) := by
  apply pick_fits (fun x y => x < y) top n _ _ c hn
  · simpa using small
  · simpa using fun x y z => Nat.lt_trans
  · simp
    omega

/-- `worstFit` meets the specification. -/
lemma worstFit_fits (n : Nat) (c : Chain next head l) (hn : l.length < fuel)
    (pos : ∀ i ∈ l, 0 < size i) : Fits l size n (worstFit next size n fuel head) := by
  apply pick_fits (fun x y => y < x) 0 n _ _ c hn
  · simpa using pos
  · simpa using fun x y z a b => Nat.lt_trans b a
  · simp
    omega

end Fit

end PDS.Links
