import PDS.Lab1.ClientInv

/-!
# What the clients compute

The output of the clients as a function of the lines of the input (`computes`), and the proof that a client whose memory is
right (`ClientOk`) has this output unless an allocation fails (`main_spec`).
-/

namespace PDS.Lab1
open Word Objects Extent

section Insertion

variable {α β : Type} (lt : α → α → Bool)

/-- The inner loop of an insertion sort: the sorted elements are in reverse order. -/
def inserisci (x : α) : List α → List α
  | [] => [x]
  | y :: l => if lt x y then y :: inserisci x l else x :: y :: l

/-- Insertion sort. -/
def ordina (l : List α) : List α := (l.foldl (fun acc x => inserisci lt x acc) []).reverse

/-- Inserting adds one element. -/
lemma inserisci_perm (x : α) (l : List α) : (inserisci lt x l).Perm (x :: l) := by
  induction l with
  | nil => exact .refl _
  | cons y l ih =>
    rw [inserisci]
    split_ifs with less
    · exact (ih.cons y).trans (.swap x y l)
    · exact .refl _

/-- Inserting one after the other adds all. -/
lemma foldl_inserisci_perm (l acc : List α) :
    (l.foldl (fun acc x => inserisci lt x acc) acc).Perm (l ++ acc) := by
  induction l generalizing acc with
  | nil => exact .refl _
  | cons x l ih =>
    refine (ih _).trans ((List.Perm.append_left l (inserisci_perm lt x acc)).trans ?_)
    exact List.perm_middle

/-- Sorting rearranges. -/
lemma ordina_perm (l : List α) : (ordina lt l).Perm l := by
  refine (List.reverse_perm _).trans ((foldl_inserisci_perm lt l []).trans ?_)
  rw [List.append_nil]

variable {lt} {lt' : β → β → Bool} {f : β → α}

/-- Inserting goes with a map that keeps the order. -/
lemma inserisci_map (same : ∀ x y, lt' x y = lt (f x) (f y)) (x : β) (l : List β) :
    (inserisci lt' x l).map f = inserisci lt (f x) (l.map f) := by
  induction l with
  | nil => rfl
  | cons y l ih =>
    rw [List.map_cons, inserisci, inserisci, same, ← ih]
    split_ifs
    · rw [List.map_cons]
    · rw [List.map_cons, List.map_cons]

/-- The sort of a list goes by the keys. -/
lemma ordina_map (same : ∀ x y, lt' x y = lt (f x) (f y)) (l : List β) : (ordina lt' l).map f = ordina lt (l.map f) := by
  have fold : ∀ acc, (l.foldl (fun acc x => inserisci lt' x acc) acc).map f =
      (l.map f).foldl (fun acc x => inserisci lt x acc) (acc.map f) := by
    induction l with
    | nil => exact fun _ => rfl
    | cons x l ih =>
      intro acc
      rw [List.foldl_cons, ih, List.map_cons, List.foldl_cons, inserisci_map same]
  rw [ordina, ordina, List.map_reverse, fold, List.map_nil]

end Insertion

/-- A line without the newline at its end. -/
def chomp (line : List UInt8) : List UInt8 := if line.getLast? = some newline then line.dropLast else line

/-- Up to `n` lines, and the rest of the file. -/
def readLines : Nat → List UInt8 → List (List UInt8) × List UInt8
  | 0, fp => ([], fp)
  | n + 1, fp =>
    if fp = [] then ([], fp)
    else
      let (line, rest) := takeLine (maxLineLen - 1) fp
      (chomp line :: (readLines n rest).1, (readLines n rest).2)

/-- `strcmp` is negative. -/
def strLt (s t : List UInt8) : Bool := s < t

/-- The lines as they are written. -/
def printLines (l : List (List UInt8)) : List UInt8 := l.flatMap (· ++ [newline])

/-- The lines that are saved. -/
def longLines (M : Int) (l : List (List UInt8)) : List (List UInt8) := l.filter fun s => ¬ s.length ≤ toSize M

/-- The pages: what is written, and what has been saved then. -/
def pages (N : Nat) (M : Int) : Nat → List UInt8 → List (List UInt8) → List UInt8 × List (List UInt8)
  | 0, _, saved => ([], saved)
  | fuel + 1, fp, saved =>
    let (lines, rest) := readLines N fp
    if lines = [] then ([], saved)
    else
      let sorted := ordina strLt lines
      let (out, saved) := pages N M fuel rest (saved ++ longLines M sorted)
      (printLines sorted ++ out, saved)

/-- The two output files. -/
def computes (fileIn : List UInt8) (N M : Int) : List UInt8 × List UInt8 :=
  let (out, saved) := pages N.toNat M (fileIn.length + 1) fileIn []
  (out, printLines (ordina strLt saved))

/-- A line and what is left are the file. -/
lemma takeLine_append (n : Nat) (fp : List UInt8) : (takeLine n fp).1 ++ (takeLine n fp).2 = fp := by
  induction n generalizing fp with
  | zero => rfl
  | succ n ih =>
    cases fp with
    | nil => rfl
    | cons c fp =>
      rw [takeLine]
      split_ifs
      · rfl
      · exact congrArg (c :: ·) (ih fp)

/-- A line of a file that is not empty is not empty. -/
lemma takeLine_ne_nil {n : Nat} {fp : List UInt8} (ne : fp ≠ []) : (takeLine (n + 1) fp).1 ≠ [] := by
  cases fp with
  | nil => exact absurd rfl ne
  | cons c fp =>
    rw [takeLine]
    split_ifs
    · exact List.cons_ne_nil _ _
    · exact List.cons_ne_nil _ _

/-- A line fits into the buffer. -/
lemma takeLine_length_le (n : Nat) (fp : List UInt8) : (takeLine n fp).1.length ≤ n := by
  induction n generalizing fp with
  | zero => exact le_rfl
  | succ n ih =>
    cases fp with
    | nil => exact Nat.zero_le _
    | cons c fp =>
      rw [takeLine]
      split_ifs
      · exact Nat.succ_le_succ (Nat.zero_le _)
      · exact Nat.succ_le_succ (ih fp)

/-- Lines come from the file, and the file gets shorter. -/
lemma readLines_spec {fp : List UInt8} (none : 0 ∉ fp) (n : Nat) :
    0 ∉ (readLines n fp).2 ∧ ((readLines n fp).1 ≠ [] → (readLines n fp).2.length < fp.length) ∧
      (readLines n fp).2.length ≤ fp.length := by
  induction n generalizing fp with
  | zero => exact ⟨none, fun ne => absurd rfl ne, le_rfl⟩
  | succ n ih =>
    rw [readLines]
    by_cases nil : fp = []
    · rw [if_pos nil]
      exact ⟨none, fun ne => absurd rfl ne, le_rfl⟩
    · rw [if_neg nil]
      have app := takeLine_append (maxLineLen - 1) fp
      have ne : (takeLine (maxLineLen - 1) fp).1 ≠ [] := takeLine_ne_nil nil
      have pos := List.length_pos_iff.2 ne
      have length := congrArg List.length app
      rw [List.length_append] at length
      have none' : 0 ∉ (takeLine (maxLineLen - 1) fp).2 := fun mem => none (app ▸ List.mem_append_right _ mem)
      obtain ⟨h₁, -, h₂⟩ := ih none'
      exact ⟨h₁, fun _ => by dsimp only; omega, by dsimp only; omega⟩

/-- What `leggiPagina` makes of the buffer. -/
lemma buffer_chomp {line : List UInt8} (ne : line ≠ []) (none : 0 ∉ line) :
    (bufStr (line ++ [0])).length ≠ 0 ∧
    bufStr (if (line ++ [0]).getD ((bufStr (line ++ [0])).length - 1) 0 = newline
      then (line ++ [0]).set ((bufStr (line ++ [0])).length - 1) 0 else line ++ [0]) = chomp line ∧
    (if (line ++ [0]).getD ((bufStr (line ++ [0])).length - 1) 0 = newline
      then (bufStr (line ++ [0])).length - 1 else (bufStr (line ++ [0])).length) = (chomp line).length := by
  have cut : ∀ l r : List UInt8, 0 ∉ l → bufStr (l ++ 0 :: r) = l := by
    intro l r none
    rw [bufStr, List.takeWhile_append_of_pos, List.takeWhile_cons_of_neg (by simp), List.append_nil]
    intro c hc
    simpa using fun eq : c = 0 => none (eq ▸ hc)
  rw [cut line [] none]
  obtain ⟨init, c, rfl⟩ := List.eq_nil_or_concat line |>.resolve_left ne
  rw [List.concat_eq_append] at none ⊢
  have none' : 0 ∉ init := fun mem => none (List.mem_append_left _ mem)
  have last : (init ++ [c] ++ [0]).getD ((init ++ [c]).length - 1) 0 = c := by simp
  rw [last, chomp, List.getLast?_concat, List.dropLast_concat]
  refine ⟨by simp, ?_, ?_⟩
  · by_cases end_ : c = newline
    · rw [if_pos end_, if_pos (congrArg some end_)]
      have set : (init ++ [c] ++ [0]).set ((init ++ [c]).length - 1) 0 = init ++ 0 :: [0] := by simp
      rw [set, cut init [0] none']
    · rw [if_neg end_, if_neg fun eq => end_ (Option.some.inj eq)]
      exact cut _ [] none
  · by_cases end_ : c = newline
    · rw [if_pos end_, if_pos (congrArg some end_)]
      simp
    · rw [if_neg end_, if_neg fun eq => end_ (Option.some.inj eq)]

/-- A line with its block. -/
abbrev Line := Block × List UInt8

def strs (l : List Line) : Multiset (Block × Obj) := ↑(l.map fun e => (e.1, Obj.str e.2))

/-- The pointers to the lines. -/
def starts (l : List Line) : List Nat := l.map fun e => e.1.start

def texts (l : List Line) : List (List UInt8) := l.map Prod.snd

def lineLt (e e' : Line) : Bool := strLt e.2 e'.2

section Lines

variable {e : Line} {l l' : List Line} {i : Nat}

/-- No lines have no strings. -/
@[simp] lemma strs_nil : strs [] = 0 := rfl

/-- The first line and the others. -/
@[simp] lemma strs_cons : strs (e :: l) = (e.1, .str e.2) ::ₘ strs l := rfl

/-- The order of the lines does not matter. -/
lemma strs_perm (p : l.Perm l') : strs l = strs l' := Multiset.coe_eq_coe.2 (p.map _)

/-- One more line. -/
lemma strs_concat : strs (l ++ [e]) = (e.1, .str e.2) ::ₘ strs l := strs_perm (List.perm_append_singleton e l)

/-- The string of a line. -/
lemma mem_strs (h : e ∈ l) : (e.1, Obj.str e.2) ∈ strs l := Multiset.mem_coe.2 (List.mem_map_of_mem h)

/-- The starts of two parts. -/
@[simp] lemma starts_append : starts (l ++ l') = starts l ++ starts l' := List.map_append

/-- There are as many starts as lines. -/
@[simp] lemma starts_length : (starts l).length = l.length := List.length_map _

/-- The start of one line. -/
lemma starts_get (h : l[i]? = some e) : (starts l)[i]? = some e.1.start := by
  rw [starts, List.getElem?_map, h]
  rfl

/-- The texts of two parts. -/
@[simp] lemma texts_append : texts (l ++ l') = texts l ++ texts l' := List.map_append

/-- There are as many texts as lines. -/
@[simp] lemma texts_length : (texts l).length = l.length := List.length_map _

/-- Sorting the lines sorts their texts. -/
lemma texts_ordina : texts (ordina lineLt l) = ordina strLt (texts l) :=
  ordina_map (f := Prod.snd) (fun _ _ => rfl) l

end Lines

section Run

variable {σ : Type} {C : Client σ} {room count : Nat} {Ok : σ → Multiset Block → Prop} {s : σ}
  {F : Multiset (Block × Obj)} {page b : Block} {lines saved : List Line}

/-- The lines are read to the page. -/
lemma leggiLoop_spec (count : Nat) (law : Lawful C.toAllocator room Ok) {n : Nat} {fp : List UInt8}
    (h : C.Has Ok s ((page, .ptrs (starts lines)) ::ₘ (strs lines + F))) (fits : 8 * (lines.length + n) ≤ page.size)
    (none : 0 ∉ fp) :
    Outcome room count (C.leggiLoop page.start n lines.length s fp) fun r => ∃ more : List Line,
      texts more = (readLines n fp).1 ∧ r.2.1 = (readLines n fp).2 ∧ r.2.2 = (lines ++ more).length ∧
        C.Has Ok r.1 ((page, .ptrs (starts (lines ++ more))) ::ₘ (strs (lines ++ more) + F)) := by
  induction n generalizing s lines fp with
  | zero =>
    rw [Client.leggiLoop]
    exact .ok ⟨[], rfl, rfl, by rw [List.append_nil], by rwa [List.append_nil]⟩
  | succ n ih =>
    rw [Client.leggiLoop, readLines]
    by_cases nil : fp = []
    · rw [if_pos nil, fgets, if_pos nil]
      exact .ok ⟨[], rfl, rfl, by rw [List.append_nil], by rwa [List.append_nil]⟩
    · rw [if_neg nil, fgets, if_neg nil]
      have app := takeLine_append (maxLineLen - 1) fp
      have ne : (takeLine (maxLineLen - 1) fp).1 ≠ [] := takeLine_ne_nil nil
      have short := takeLine_length_le (maxLineLen - 1) fp
      generalize takeLine (maxLineLen - 1) fp = t at app ne short ⊢
      obtain ⟨line, rest⟩ := t
      dsimp only at app ne short ⊢
      have none₁ : 0 ∉ line := fun mem => none (app ▸ List.mem_append_left _ mem)
      have none₂ : 0 ∉ rest := fun mem => none (app ▸ List.mem_append_right _ mem)
      obtain ⟨pos, buf, len⟩ := buffer_chomp ne none₁
      have sub : chomp line ⊆ line := by
        rw [chomp]
        split_ifs
        · exact List.dropLast_subset line
        · exact List.Subset.refl line
      have le : (chomp line).length ≤ 99 := by
        rw [chomp]
        split_ifs
        · rw [List.length_dropLast]
          exact (Nat.sub_le _ _).trans short
        · exact short
      rw [if_neg pos, buf, len]
      refine (allocate_spec law h (Nat.succ_pos _) (by omega)).bind ?_
      rintro ⟨s₁, _⟩ ⟨b, rfl, size, h₁⟩
      dsimp only at h₁ ⊢
      have small := start_lt law h₁ (Multiset.mem_cons_self _ _)
      rw [Multiset.cons_swap] at h₁
      have h₂ := setPtr_append law h₁ (by rw [starts_length]; omega) small
      rw [starts_length] at h₂
      have at_ : (starts lines ++ [b.start])[lines.length]? = some b.start := by
        rw [← starts_length (l := lines)]
        exact List.getElem?_concat_length
      rw [ptr_eq h₂ (Multiset.mem_cons_self _ _) at_]
      rw [Multiset.cons_swap] at h₂
      have h₃ := strcpy_spec law h₂ size fun mem => none₁ (sub mem)
      have cells : (b, Obj.str (chomp line)) ::ₘ (page, .ptrs (starts lines ++ [b.start])) ::ₘ (strs lines + F) =
          (page, .ptrs (starts (lines ++ [(b, chomp line)]))) ::ₘ (strs (lines ++ [(b, chomp line)]) + F) := by
        rw [strs_concat, Multiset.cons_swap, Multiset.cons_add, starts_append]
        rfl
      have h₄ := h₃.of_eq cells
      have count_eq : lines.length + 1 = (lines ++ [(b, chomp line)]).length := by simp
      rw [count_eq]
      refine (ih h₄ (by rw [← count_eq]; omega) none₂).mono ?_
      rintro ⟨s₅, fp', nr⟩ ⟨more, text, rfl, rfl, h₅⟩
      refine ⟨(b, chomp line) :: more, ?_, rfl, ?_, ?_⟩
      · rw [← text]
        rfl
      · rw [List.append_assoc]
        rfl
      · rw [List.append_assoc] at h₅
        exact h₅

/-- The strings are compared. -/
lemma compare_eq (law : Lawful C.toAllocator room Ok) {x y : Line} (h : C.Has Ok s F) (hx : (x.1, .str x.2) ∈ F)
    (hy : (y.1, .str y.2) ∈ F) : (str (C.mem s) x.1.start < str (C.mem s) y.1.start) ↔ lineLt x y = true := by
  rw [str_eq law h hx, str_eq law h hy, lineLt, strLt, decide_eq_true_iff]

/-- The inner loop inserts a pointer among those before it; at `q` is the gap. -/
lemma sposta_spec (law : Lawful C.toAllocator room Ok) {x : Line} (hx : (x.1, .str x.2) ∈ F) {acc : List Line}
    (hacc : ∀ y ∈ acc, (y.1, Obj.str y.2) ∈ F) {q : Nat} {rest : List Nat}
    (h : C.Has Ok s ((page, .ptrs (starts acc.reverse ++ q :: rest)) ::ₘ F)) :
    C.Has Ok
      (C.setPtr (C.sposta page.start x.1.start acc.length s).1 page.start
        (C.sposta page.start x.1.start acc.length s).2 x.1.start)
      ((page, .ptrs (starts (inserisci lineLt x acc).reverse ++ rest)) ::ₘ F) := by
  have small : x.1.start < 2 ^ 64 := start_lt law h (Multiset.mem_cons_of_mem hx)
  induction acc generalizing s q rest with
  | nil => exact setPtr_spec (i := 0) law h (Nat.succ_pos _) small
  | cons y acc ih =>
    have hy := hacc y List.mem_cons_self
    have split : starts (y :: acc).reverse ++ q :: rest = starts acc.reverse ++ y.1.start :: q :: rest := by
      simp [starts]
    have length : (starts acc.reverse).length = acc.length := by simp
    rw [split] at h
    have at_ : (starts acc.reverse ++ y.1.start :: q :: rest)[acc.length]? = some y.1.start := by
      rw [List.getElem?_append_right length.le, length, Nat.sub_self]
      rfl
    have set : ∀ p, (starts acc.reverse ++ y.1.start :: q :: rest).set (acc.length + 1) p =
        starts acc.reverse ++ y.1.start :: p :: rest := by
      intro p
      rw [List.set_append_right _ _ (by omega), length, Nat.add_sub_cancel_left]
      rfl
    have inside : acc.length + 1 < (starts acc.reverse ++ y.1.start :: q :: rest).length := by simp
    have small' : y.1.start < 2 ^ 64 := start_lt law h (Multiset.mem_cons_of_mem hy)
    have less := compare_eq law h (Multiset.mem_cons_of_mem hx) (Multiset.mem_cons_of_mem hy)
    rw [List.length_cons, Client.sposta, ptr_eq h (Multiset.mem_cons_self _ _) at_, inserisci]
    by_cases lt : lineLt x y = true
    · rw [if_pos (less.2 lt), if_pos lt]
      have h₁ := setPtr_spec law h inside small'
      rw [set] at h₁
      have h₂ := ih (fun z hz => hacc z (List.mem_cons_of_mem _ hz)) h₁
      refine h₂.of_eq ?_
      simp [starts]
    · rw [if_neg fun l => lt (less.1 l), if_neg lt]
      have h₁ := setPtr_spec law h inside small
      rw [set] at h₁
      refine h₁.of_eq ?_
      simp [starts]

/-- The outer loop of the sort. -/
lemma ordinaLoop_spec (law : Lawful C.toAllocator room Ok) {acc rest : List Line}
    (hacc : ∀ y ∈ acc, (y.1, Obj.str y.2) ∈ F) (hrest : ∀ y ∈ rest, (y.1, Obj.str y.2) ∈ F)
    (h : C.Has Ok s ((page, .ptrs (starts (acc.reverse ++ rest))) ::ₘ F)) :
    C.Has Ok (C.ordinaLoop page.start rest.length acc.length s)
      ((page, .ptrs (starts (rest.foldl (fun acc x => inserisci lineLt x acc) acc).reverse)) ::ₘ F) := by
  induction rest generalizing s acc with
  | nil =>
    rw [List.append_nil] at h
    exact h
  | cons x rest ih =>
    have hx := hrest x List.mem_cons_self
    rw [starts_append] at h
    have at_ : (starts acc.reverse ++ starts (x :: rest))[acc.length]? = some x.1.start := by
      have length : (starts acc.reverse).length = acc.length := by simp
      rw [List.getElem?_append_right length.le, length, Nat.sub_self]
      rfl
    rw [List.length_cons, Client.ordinaLoop, ptr_eq h (Multiset.mem_cons_self _ _) at_]
    have gap : C.Has Ok s ((page, .ptrs (starts acc.reverse ++ x.1.start :: starts rest)) ::ₘ F) := h
    have h₁ := sposta_spec law hx hacc gap
    have perm := inserisci_perm lineLt x acc
    have length : (inserisci lineLt x acc).length = acc.length + 1 := perm.length_eq
    rw [← starts_append] at h₁
    have h₂ := ih ?_ (fun y hy => hrest y (List.mem_cons_of_mem _ hy)) h₁
    · rw [length] at h₂
      exact h₂
    · intro y hy
      cases List.mem_cons.1 (perm.mem_iff.1 hy) with
      | inl eq => rwa [eq]
      | inr hy => exact hacc y hy

/-- The pointers of a page are sorted by their strings. -/
lemma ordinaPagina_spec (law : Lawful C.toAllocator room Ok) (hl : ∀ y ∈ lines, (y.1, Obj.str y.2) ∈ F)
    (h : C.Has Ok s ((page, .ptrs (starts lines)) ::ₘ F)) :
    C.Has Ok (C.ordinaPagina s page.start lines.length) ((page, .ptrs (starts (ordina lineLt lines))) ::ₘ F) := by
  cases lines with
  | nil => exact h
  | cons e lines =>
    have first : ∀ y ∈ [e], (y.1, Obj.str y.2) ∈ F := by
      intro y hy
      rw [List.mem_singleton.1 hy]
      exact hl e List.mem_cons_self
    have h₁ : C.Has Ok s ((page, .ptrs (starts ([e].reverse ++ lines))) ::ₘ F) := h
    exact ordinaLoop_spec law first (fun y hy => hl y (List.mem_cons_of_mem _ hy)) h₁

/-- A page is written with the texts of its lines. -/
lemma scriviPagina_eq (law : Lawful C.toAllocator room Ok) (h : C.Has Ok s F)
    (hl : ∀ y ∈ lines, (y.1, Obj.str y.2) ∈ F) (hp : (page, .ptrs (starts lines)) ∈ F) :
    C.scriviPagina s page.start lines.length = printLines (texts lines) := by
  rw [Client.scriviPagina, printLines, List.flatMap_def, List.flatMap_def]
  congr 1
  refine List.ext_getElem (by simp) fun i lt lt' => ?_
  have hi : i < lines.length := by simpa using lt
  have at_ := starts_get (List.getElem?_eq_getElem hi)
  simp only [List.getElem_map, List.getElem_range, texts]
  rw [ptr_eq h hp at_, str_eq law h (hl lines[i] (List.getElem_mem hi))]

/-- A line is long or is not. -/
lemma longLines_cons {M : Int} {t : List UInt8} {l : List (List UInt8)} :
    longLines M (t :: l) = if t.length ≤ toSize M then longLines M l else t :: longLines M l := by
  rw [longLines, List.filter_cons]
  split_ifs with h₁ h₂ <;> simp_all [longLines]

/-- The short lines are freed, the long ones are saved. -/
lemma filtraLoop_spec (law : Lawful C.toAllocator room Ok) (full : C.FullOk) {M : Int} {ps : List Nat} {i : Nat}
    {x : SArr} (h : C.Has Ok s ((page, .ptrs ps) ::ₘ (strs lines + (x.cells + strs saved))))
    (rest : ps.drop i = starts lines) (fits : x.Fits) (pointers : x.ps = starts saved)
    (many : saved.length + (longLines M (texts lines)).length ≤ count) :
    Outcome room count (C.filtraLoop page.start x.head.start M lines.length i s) fun s' =>
      ∃ (x' : SArr) (saved' : List Line), x'.head = x.head ∧ x'.ps = starts saved' ∧
        texts saved' = texts saved ++ longLines M (texts lines) ∧ x'.Fits ∧
        C.Has Ok s' ((page, .ptrs ps) ::ₘ (x'.cells + strs saved')) := by
  induction lines generalizing s i x saved with
  | nil =>
    rw [strs_nil, zero_add] at h
    exact .ok ⟨x, saved, rfl, pointers, (List.append_nil _).symm, fits, h⟩
  | cons e lines ih =>
    have at_ : ps[i]? = some e.1.start := by
      have first := congrArg (·[0]?) rest
      simpa [starts] using first
    have rest' : ps.drop (i + 1) = starts lines := by
      rw [← List.drop_drop, rest]
      rfl
    have line : (e.1, Obj.str e.2) ∈ (page, .ptrs ps) ::ₘ (strs (e :: lines) + (x.cells + strs saved)) := by simp
    have text : longLines M (texts (e :: lines)) =
        if e.2.length ≤ toSize M then longLines M (texts lines) else e.2 :: longLines M (texts lines) := longLines_cons
    rw [List.length_cons, Client.filtraLoop, ptr_eq h (Multiset.mem_cons_self _ _) at_, str_eq law h line]
    rw [text] at many ⊢
    by_cases short : e.2.length ≤ toSize M
    · rw [if_pos short] at many ⊢
      rw [if_pos short]
      have h₁ : C.Has Ok s ((e.1, .str e.2) ::ₘ (page, .ptrs ps) ::ₘ (strs lines + (x.cells + strs saved))) :=
        h.of_eq (by rw [strs_cons, Multiset.cons_add, Multiset.cons_swap])
      obtain ⟨s₂, free, h₂⟩ := release_spec law h₁
      rw [free]
      exact ih h₂ rest' fits pointers many
    · rw [if_neg short] at many ⊢
      rw [if_neg short]
      rw [List.length_cons] at many
      have h₁ : C.Has Ok s (x.cells + ((page, .ptrs ps) ::ₘ (strs (e :: lines) + strs saved))) := by
        refine h.of_eq ?_
        simp only [strs_cons, ← Multiset.singleton_add]
        abel
      have length : x.ps.length = saved.length := by rw [pointers, starts_length]
      refine (strArrayPush_spec law full h₁ fits (start_lt law h line) (by omega)).bind ?_
      rintro s₂ ⟨x', head, pointers', h₂, fits'⟩
      have h₃ : C.Has Ok s₂ ((page, .ptrs ps) ::ₘ (strs lines + (x'.cells + strs (saved ++ [e])))) := by
        refine h₂.of_eq ?_
        rw [strs_concat]
        simp only [strs_cons, ← Multiset.singleton_add]
        abel
      have pointers₃ : x'.ps = starts (saved ++ [e]) := by
        rw [pointers', pointers, starts_append]
        rfl
      rw [← head]
      refine (ih h₃ rest' fits' pointers₃ (by rw [List.length_append, List.length_singleton]; omega)).mono ?_
      rintro s₄ ⟨x'', saved', head', pointers'', texts', fits'', h₄⟩
      refine ⟨x'', saved', head', pointers'', ?_, fits'', h₄⟩
      rw [texts', texts_append, List.append_assoc]
      rfl

end Run

/-! ## The programs -/

/-- A client whose memory is right; what it does after a page may move its objects. -/
structure ClientOk {σ : Type} (C : Client σ) (room : Nat) (Ok : σ → Multiset Block → Prop) : Prop where
  law : Lawful C.toAllocator room Ok
  full : C.FullOk
  afterPage : ∀ (s : σ) (x : SArr) (page : Block) (saved : List Line),
    C.Has Ok s ((page, .raw) ::ₘ (x.cells + strs saved)) → x.Fits → x.ps = starts saved →
    ∃ s' x' page' saved', C.afterPage s x.head.start page.start = .ok (s', SArr.head x' |>.start, Block.start page') ∧
      C.Has Ok s' ((page', .raw) ::ₘ (x'.cells + strs saved')) ∧ x'.Fits ∧ x'.ps = starts saved' ∧
      texts saved' = texts saved ∧ page'.size = page.size

/-- No page that has been saved is lost. -/
lemma pages_length (N : Nat) (M : Int) (fuel : Nat) (fp : List UInt8) (saved : List (List UInt8)) :
    saved.length ≤ (pages N M fuel fp saved).2.length := by
  induction fuel generalizing fp saved with
  | zero => exact le_rfl
  | succ fuel ih =>
    rw [pages]
    dsimp only
    split_ifs
    · exact le_rfl
    · exact (List.sublist_append_left ..).length_le.trans (ih _ _)

section Main

variable {σ : Type} {C : Client σ} {room count : Nat} {Ok : σ → Multiset Block → Prop} {s : σ} {page : Block}
  {saved : List Line}

/-- The loop over the pages. -/
lemma mainLoop_spec (ok : ClientOk C room Ok) {N : Nat} {M : Int} {fuel : Nat} {fp : List UInt8} {x : SArr}
    (h : C.Has Ok s ((page, .raw) ::ₘ (x.cells + strs saved))) (fits : x.Fits) (pointers : x.ps = starts saved)
    (size : 8 * N ≤ page.size) (none : 0 ∉ fp) (enough : fp.length < fuel)
    (many : (pages N M fuel fp (texts saved)).2.length ≤ count) :
    Outcome room count (C.mainLoop N M fuel s x.head.start page.start fp) fun r =>
      ∃ (x' : SArr) (page' : Block) (saved' : List Line), r.2.1 = x'.head.start ∧ r.2.2.1 = page'.start ∧
        (r.2.2.2, texts saved') = pages N M fuel fp (texts saved) ∧
        C.Has Ok r.1 ((page', .raw) ::ₘ (x'.cells + strs saved')) ∧ x'.Fits ∧ x'.ps = starts saved' := by
  induction fuel generalizing s fp x page saved with
  | zero => omega
  | succ fuel ih =>
    have law := ok.law
    have h₀ : C.Has Ok s ((page, .ptrs (starts [])) ::ₘ (strs [] + (x.cells + strs saved))) := by
      rw [strs_nil, zero_add]
      exact h.view (Nat.zero_le _) fun _ i p e => by cases e
    obtain ⟨none', shorter, -⟩ := readLines_spec none N
    have read := leggiLoop_spec (n := N) count law h₀ (by simpa using size) none
    rw [pages] at many ⊢
    generalize readLines N fp = t at none' shorter read many ⊢
    obtain ⟨texts', rest⟩ := t
    dsimp only at none' shorter read many ⊢
    rw [Client.mainLoop, Client.leggiPagina]
    refine read.bind ?_
    rintro ⟨s₁, rest, _⟩ ⟨more, rfl, rfl, rfl, h₁⟩
    rw [List.nil_append] at h₁ ⊢
    dsimp only at none' shorter many h₁ ⊢
    by_cases nil : more = []
    · subst nil
      rw [if_pos List.length_nil, if_pos (show texts [] = [] from rfl)]
      refine .ok ⟨x, page, saved, rfl, rfl, rfl, ?_, fits, pointers⟩
      rw [strs_nil, zero_add] at h₁
      exact h₁.view (Nat.zero_le _) fun _ => trivial
    · have nil' : texts more ≠ [] := fun e => nil (List.map_eq_nil_iff.1 e)
      rw [if_neg nil'] at many ⊢
      rw [if_neg (mt List.length_eq_zero_iff.1 nil)]
      have perm := ordina_perm lineLt more
      have inside : ∀ y ∈ more, (y.1, Obj.str y.2) ∈ strs more + (x.cells + strs saved) := fun y hy =>
        Multiset.mem_add.2 (.inl (mem_strs hy))
      have h₂ := ordinaPagina_spec law inside h₁
      have written := scriviPagina_eq law h₂
        (fun y hy => Multiset.mem_cons_of_mem (inside y (perm.mem_iff.1 hy))) (Multiset.mem_cons_self _ _)
      rw [perm.length_eq, texts_ordina] at written
      rw [written, ← perm.length_eq]
      rw [← perm.length_eq, ← strs_perm perm] at h₂
      rw [← texts_ordina] at many ⊢
      have total := pages_length N M fuel rest (texts saved ++ longLines M (texts (ordina lineLt more)))
      rw [List.length_append, texts_length] at total
      refine (filtraLoop_spec law ok.full h₂ rfl fits pointers (total.trans many)).bind ?_
      rintro s₃ ⟨x₃, saved₃, head₃, pointers₃, texts₃, fits₃, h₃⟩
      have h₄ : C.Has Ok s₃ ((page, .raw) ::ₘ (x₃.cells + strs saved₃)) := h₃.view (Nat.zero_le _) fun _ => trivial
      obtain ⟨s₅, x₅, page₅, saved₅, moved, h₅, fits₅, pointers₅, texts₅, size₅⟩ :=
        ok.afterPage s₃ x₃ page saved₃ h₄ fits₃ pointers₃
      rw [← head₃]
      refine Outcome.bind (.of_eq moved rfl) ?_
      rintro _ rfl
      dsimp only
      have length := shorter nil'
      rw [← texts₃, ← texts₅] at many ⊢
      refine (ih h₅ fits₅ pointers₅ (size₅ ▸ size) none' (by omega) many).bind ?_
      rintro ⟨s₆, _, _, out⟩ ⟨x₆, page₆, saved₆, rfl, rfl, result, h₆, fits₆, pointers₆⟩
      dsimp only at result h₆ ⊢
      rw [← result]
      exact .ok ⟨x₆, page₆, saved₆, rfl, rfl, rfl, h₆, fits₆, pointers₆⟩

/-- The pointers of an array are sorted by their strings. -/
lemma strArraySort_spec (law : Lawful C.toAllocator room Ok) {x : SArr} (h : C.Has Ok s (x.cells + strs saved))
    (fits : x.Fits) (pointers : x.ps = starts saved) :
    C.Has Ok (C.strArraySort s x.head.start)
      ((SArr.mk x.head x.body x.cap (starts (ordina lineLt saved))).cells + strs saved) := by
  rw [Client.strArraySort, x.num_eq h]
  obtain ⟨head, body, cap, ps⟩ := x
  dsimp only at pointers ⊢
  subst pointers
  cases saved with
  | nil => exact h
  | cons e saved =>
    rw [starts_length, List.length_cons, if_neg (Nat.succ_ne_zero _)]
    cases body with
    | none =>
      obtain ⟨-, nil⟩ : cap = 0 ∧ starts (e :: saved) = [] := fits
      cases nil
    | some b =>
      have h₁ : C.Has Ok s ((b, .ptrs (starts (e :: saved))) ::ₘ (head, .sarr b.start (e :: saved).length cap) ::ₘ
          strs (e :: saved)) := h.of_eq (by simp [SArr.cells, Multiset.cons_swap])
      have record : (head, Obj.sarr b.start (e :: saved).length cap) ∈ (b, Obj.ptrs (starts (e :: saved))) ::ₘ
          (head, Obj.sarr b.start (e :: saved).length cap) ::ₘ strs (e :: saved) := by simp
      have inside : ∀ y ∈ e :: saved, (y.1, Obj.str y.2) ∈ (head, Obj.sarr b.start (e :: saved).length cap) ::ₘ
          strs (e :: saved) := fun y hy => Multiset.mem_cons_of_mem (mem_strs hy)
      rw [array_eq h₁ record]
      refine (ordinaPagina_spec law inside h₁).of_eq ?_
      dsimp only [SArr.cells]
      rw [starts_length, (ordina_perm lineLt _).length_eq, Multiset.cons_add, Multiset.singleton_add]
      exact Multiset.cons_swap _ _ _

/-- What is written are the strings of an array. -/
lemma strArrayPrint_eq (law : Lawful C.toAllocator room Ok) {x : SArr} {F : Multiset (Block × Obj)} {l : List Line}
    (h : C.Has Ok s (x.cells + F)) (fits : x.Fits) (pointers : x.ps = starts l)
    (hl : ∀ y ∈ l, (y.1, Obj.str y.2) ∈ F) : C.strArrayPrint s x.head.start = printLines (texts l) := by
  rw [Client.strArrayPrint, x.num_eq h]
  obtain ⟨head, body, cap, ps⟩ := x
  dsimp only at pointers ⊢
  subst pointers
  cases l with
  | nil => rfl
  | cons e l =>
    rw [starts_length, List.length_cons, if_neg (Nat.succ_ne_zero _)]
    cases body with
    | none =>
      obtain ⟨-, nil⟩ : cap = 0 ∧ starts (e :: l) = [] := fits
      cases nil
    | some b =>
      have record : (head, Obj.sarr b.start (starts (e :: l)).length cap) ∈
          (SArr.mk head (some b) cap (starts (e :: l))).cells + F := by simp [SArr.cells]
      have body : (b, Obj.ptrs (starts (e :: l))) ∈ (SArr.mk head (some b) cap (starts (e :: l))).cells + F := by
        simp [SArr.cells]
      rw [array_eq h record]
      exact scriviPagina_eq law h (fun y hy => Multiset.mem_add.2 (.inr (hl y hy))) body

/-- An array is given back. -/
lemma strArrayFree_spec (law : Lawful C.toAllocator room Ok) {x : SArr} {F : Multiset (Block × Obj)}
    (h : C.Has Ok s (x.cells + F)) (fits : x.Fits) : ∃ s', C.strArrayFree s x.head.start = .ok s' := by
  rw [Client.strArrayFree, x.allocSize_eq h]
  obtain ⟨head, body, cap, ps⟩ := x
  dsimp only
  cases body with
  | none =>
    obtain ⟨rfl, rfl⟩ : cap = 0 ∧ ps = [] := fits
    have h₁ : C.Has Ok s ((head, .sarr 0 0 0) ::ₘ F) := h
    obtain ⟨s₂, free, -⟩ := release_spec law h₁
    rw [if_neg (Nat.lt_irrefl 0)]
    exact ⟨s₂, free⟩
  | some b =>
    obtain ⟨pos, -⟩ : 0 < cap ∧ ps.length ≤ cap ∧ 8 * cap ≤ b.size ∧ cap < 2 ^ 31 := fits
    have h₁ : C.Has Ok s ((b, .ptrs ps) ::ₘ (head, .sarr b.start ps.length cap) ::ₘ F) :=
      h.of_eq (by simp [SArr.cells, Multiset.cons_swap])
    have record : (head, Obj.sarr b.start ps.length cap) ∈
        (b, Obj.ptrs ps) ::ₘ (head, Obj.sarr b.start ps.length cap) ::ₘ F := by simp
    obtain ⟨s₂, free, h₂⟩ := release_spec law h₁
    obtain ⟨s₃, free', -⟩ := release_spec law h₂
    rw [if_pos pos, array_eq h₁ record, free]
    exact ⟨s₃, free'⟩

/-- Unless an allocation fails, the program ends with the two files. -/
theorem main_spec (ok : ClientOk C room Ok) (start : Ok s 0) {fileIn : List UInt8} (clean : 0 ∉ fileIn) {N : Int}
    (pos : 1 ≤ N) (lt : N < 2 ^ 31) (M : Int) :
    Outcome room (pages N.toNat M (fileIn.length + 1) fileIn []).2.length (C.main s fileIn N M) fun r =>
      r = computes fileIn N M ∧ 8 * (pages N.toNat M (fileIn.length + 1) fileIn []).2.length ≤ room := by
  have law := ok.law
  have h₀ : C.Has Ok s 0 := ⟨start, fun c hc => absurd hc (Multiset.notMem_zero c)⟩
  rw [Client.main]
  refine (strArrayInit_spec law h₀).bind ?_
  rintro ⟨s₁, _⟩ ⟨b, rfl, h₁⟩
  dsimp only at h₁ ⊢
  have bytes : wmul 64 (toSize N) 8 = 8 * N.toNat := by
    rw [toSize, Int.emod_eq_of_lt (by omega) (by omega), wmul_of_lt (by omega), Nat.mul_comm]
  rw [bytes]
  refine (allocate_spec law h₁ (by omega) (by omega)).bind ?_
  rintro ⟨s₂, _⟩ ⟨page, rfl, size, h₂⟩
  dsimp only at h₂ ⊢
  rw [add_zero] at h₂
  have h₃ : C.Has Ok s₂ ((page, .raw) ::ₘ ((SArr.mk b none 0 []).cells + strs [])) := by
    rw [strs_nil, add_zero]
    exact h₂
  have loop := mainLoop_spec (N := N.toNat) (M := M) ok h₃ ⟨rfl, rfl⟩ rfl size clean (Nat.lt_succ_self _) le_rfl
  refine loop.bind ?_
  rintro ⟨s₄, _, _, out⟩ ⟨x, page', saved, rfl, rfl, result, h₄, fits, pointers⟩
  dsimp only at result h₄ ⊢
  obtain ⟨s₅, free, h₅⟩ := release_spec law h₄
  -- the saved strings are sorted, written and given back
  have h₆ := strArraySort_spec law h₅ fits pointers
  have perm := ordina_perm lineLt saved
  have fits' : (SArr.mk x.head x.body x.cap (starts (ordina lineLt saved))).Fits :=
      x.fits_of_length fits (by simp [perm.length_eq, pointers])
  have print := strArrayPrint_eq law h₆ fits' rfl fun y hy => mem_strs (perm.mem_iff.1 hy)
  obtain ⟨s₆, free'⟩ := strArrayFree_spec law h₆ fits'
  dsimp only at print free'
  rw [texts_ordina] at print
  rw [free]
  refine .of_eq (a := (out, printLines (ordina strLt (texts saved)))) ?_ ⟨?_, ?_⟩
  · show (C.strArrayFree (C.strArraySort s₅ x.head.start) x.head.start >>= fun _ => _) = _
    rw [free', print]
    rfl
  · rw [computes]
    have eq : pages N.toNat M (fileIn.length + 1) fileIn [] = (out, texts saved) := result.symm
    rw [eq]
  · have eq : pages N.toNat M (fileIn.length + 1) fileIn [] = (out, texts saved) := result.symm
    rw [eq]
    have large := x.length_le law h₅ fits
    rw [pointers, starts_length] at large
    dsimp only
    rw [texts_length]
    omega

end Main

end PDS.Lab1
