import PDS.Lab1.Client

/-!
# What the clients keep in memory

The objects of the clients (`Obj`): strings, arrays of pointers and `strArray_t` records. For each access to memory there
is a rule that says what it does to the objects, and for each function of the clients a lemma that says what it does to the
list of strings that it works on (`Outcome`: unless an allocation fails).
-/

namespace PDS.Lab1
open Word Objects Extent

inductive Obj where
  /-- memory that is not used yet, or not any more -/
  | raw
  | str (s : List UInt8)
  | ptrs (ps : List Nat)
  | sarr (array num allocSize : Nat)

/-- There is a string at the address. -/
def StrAt (m : Mem) : Nat → List UInt8 → Prop
  | a, [] => m a = 0
  | a, c :: s => c ≠ 0 ∧ m a = c ∧ StrAt m (a + 1) s

def Obj.lies (m : Mem) (a : Nat) : Obj → Prop
  | raw => True
  | str s => StrAt m a s
  | ptrs ps => ∀ i p, ps[i]? = some p → read m 8 (a + 8 * i) = p
  | sarr array num allocSize => read m 8 a = array ∧ read m 4 (a + 8) = num ∧ read m 4 (a + 12) = allocSize

def Obj.size : Obj → Nat
  | raw => 0
  | str s => s.length + 1
  | ptrs ps => 8 * ps.length
  | sarr _ _ _ => 16

section Lies

variable {m m' : Mem} {a a' n : Nat} {s : List UInt8}

/-- A string that has been moved. -/
lemma StrAt.move (h : StrAt m a s) (same : ∀ k < s.length + 1, m' (a' + k) = m (a + k)) : StrAt m' a' s := by
  induction s generalizing a a' with
  | nil => exact (same 0 (Nat.succ_pos _)).trans h
  | cons c s ih =>
    obtain ⟨ne, first, rest⟩ := h
    refine ⟨ne, (same 0 (Nat.succ_pos _)).trans first, ih rest fun k lt => ?_⟩
    rw [Nat.add_assoc, Nat.add_comm 1, Nat.add_assoc, Nat.add_comm 1]
    exact same (k + 1) (Nat.succ_lt_succ lt)

/-- A string is read up to its end. -/
lemma StrAt.strLoop (h : StrAt m a s) (lt : s.length < n) : Lab1.strLoop m n a = s := by
  induction s generalizing a n with
  | nil =>
    obtain ⟨n, rfl⟩ := Nat.exists_eq_succ_of_ne_zero lt.ne'
    rw [Lab1.strLoop]
    exact if_pos h
  | cons c s ih =>
    obtain ⟨n, rfl⟩ := Nat.exists_eq_succ_of_ne_zero (Nat.ne_zero_of_lt lt)
    obtain ⟨ne, first, rest⟩ := h
    rw [Lab1.strLoop, first, if_neg ne, ih rest (Nat.lt_of_succ_lt_succ lt)]

/-- `strcpy` leaves other bytes alone. -/
lemma strcpy_of_ne {x : Nat} (out : x < a ∨ a + s.length + 1 ≤ x) : strcpy m a s x = m x := by
  induction s generalizing m a with
  | nil =>
    rw [List.length_nil] at out
    exact Function.update_of_ne (by omega) _ _
  | cons c s ih =>
    rw [List.length_cons] at out
    rw [strcpy, ih (by omega)]
    exact Function.update_of_ne (by omega) _ _

/-- What has been copied is a string. -/
lemma strAt_strcpy (none : 0 ∉ s) : StrAt (strcpy m a s) a s := by
  induction s generalizing m a with
  | nil => exact Function.update_self _ _ _
  | cons c s ih =>
    rw [List.mem_cons, not_or] at none
    refine ⟨Ne.symm none.1, ?_, ih none.2⟩
    rw [strcpy, strcpy_of_ne (.inl (Nat.lt_succ_self a)), Function.update_self]

end Lies

/-- How the objects of the clients lie in memory. -/
def objKind : Kind Obj where
  lies := Obj.lies
  size := Obj.size
  move := by
    intro m m' a a' o lies same
    cases o with
    | raw => trivial
    | str s => exact StrAt.move lies same
    | ptrs ps =>
      intro i p e
      obtain ⟨lt, -⟩ := List.getElem?_eq_some_iff.1 e
      rw [Obj.size] at same
      rw [← lies i p e]
      refine read_congr fun k lt' => ?_
      rw [Nat.add_assoc, Nat.add_assoc]
      exact same _ (by omega)
    | sarr array num allocSize =>
      obtain ⟨h₁, h₂, h₃⟩ := lies
      rw [Obj.size] at same
      refine ⟨?_, ?_, ?_⟩
      · rw [← h₁]
        exact read_congr fun k lt => same k (by omega)
      · rw [← h₂]
        refine read_congr fun k lt => ?_
        rw [Nat.add_assoc, Nat.add_assoc]
        exact same _ (by omega)
      · rw [← h₃]
        refine read_congr fun k lt => ?_
        rw [Nat.add_assoc, Nat.add_assoc]
        exact same _ (by omega)

/-- Unless an allocation fails, the result satisfies `P`. An `int` overflows only in large memory, when `count` strings
are too many. -/
def Outcome {α : Type} (room count : Nat) (r : Except Fault α) (P : α → Prop) : Prop :=
  r = .error .null ∨ (r = .error .undefined ∧ 2 ^ 33 ≤ room ∧ 2 ^ 30 ≤ count) ∨ ∃ a, r = .ok a ∧ P a

section Outcome

variable {α β : Type} {room count : Nat} {r : Except Fault α} {f : α → Except Fault β} {P P' : α → Prop} {Q : β → Prop}

/-- A result that is there. -/
lemma Outcome.ok {a : α} (h : P a) : Outcome room count (.ok a) P := .inr (.inr ⟨a, rfl, h⟩)

/-- A result that is known. -/
lemma Outcome.of_eq {a : α} (e : r = .ok a) (h : P a) : Outcome room count r P := .inr (.inr ⟨a, e, h⟩)

/-- One call after the other. -/
lemma Outcome.bind (h : Outcome room count r P) (h' : ∀ a, P a → Outcome room count (f a) Q) :
    Outcome room count (r >>= f) Q := by
  obtain rfl | ⟨rfl, large⟩ | ⟨a, rfl, p⟩ := h
  · exact .inl rfl
  · exact .inr (.inl ⟨rfl, large⟩)
  · exact h' a p

/-- A weaker statement about the result. -/
lemma Outcome.mono (h : Outcome room count r P) (imp : ∀ a, P a → P' a) : Outcome room count r P' := by
  obtain e | large | ⟨a, e, p⟩ := h
  · exact .inl e
  · exact .inr (.inl large)
  · exact .inr (.inr ⟨a, e, imp a p⟩)

/-- An `int` overflows only when there are too many strings. -/
lemma toInt_spec {n : Nat} (large : 2 ^ 31 ≤ n → 2 ^ 33 ≤ room ∧ 2 ^ 30 ≤ count) :
    Outcome room count (toInt n) fun m => m = n ∧ n < 2 ^ 31 := by
  rw [toInt]
  by_cases small : n < 2 ^ 31
  · rw [if_pos small]
    exact .ok ⟨rfl, small⟩
  · rw [if_neg small]
    exact .inr (.inl ⟨rfl, large (Nat.le_of_not_lt small)⟩)

end Outcome

section Rules

variable {σ : Type} {C : Client σ} {room count : Nat} {Ok : σ → Multiset Block → Prop} {s : σ}
  {F : Multiset (Block × Obj)} {b : Block} {o : Obj}

/-- The memory of a client holds objects. -/
abbrev Client.Has (C : Client σ) (Ok : σ → Multiset Block → Prop) (s : σ) (cells : Multiset (Block × Obj)) : Prop :=
  Holds C.toAllocator Ok objKind s cells

/-- The client gets a block or the heap is full. -/
lemma allocate_spec (law : Lawful C.toAllocator room Ok) (h : C.Has Ok s F) {n : Nat} (pos : 0 < n)
    (lt : n + 7 < 2 ^ 64) :
    Outcome room count (C.allocate s n) fun r =>
      ∃ b : Block, r.2 = b.start ∧ n ≤ b.size ∧ C.Has Ok r.1 ((b, .raw) ::ₘ F) := by
  have raw : ∀ m a, objKind.lies m a .raw := fun _ _ => trivial
  obtain ⟨s', p, e, new⟩ := h.alloc law pos lt rfl raw
  rw [Client.allocate, e]
  dsimp only
  by_cases null : p = 0
  · rw [if_pos null]
    exact .inl rfl
  · rw [if_neg null]
    obtain ⟨b, rfl, le, h'⟩ := new.resolve_left null
    exact .ok ⟨b, rfl, le, h'⟩

/-- The client gives a block back. -/
lemma release_spec (law : Lawful C.toAllocator room Ok) (h : C.Has Ok s ((b, o) ::ₘ F)) :
    ∃ s', C.release s b.start = .ok s' ∧ C.Has Ok s' F := by
  obtain ⟨s', e, h'⟩ := h.free law
  refine ⟨s', ?_, h'⟩
  rw [Client.release, e]

/-- The objects of a client, one by one. -/
lemma Client.Has.lies (h : C.Has Ok s F) (mem : (b, o) ∈ F) : o.size ≤ b.size ∧ o.lies (C.mem s) b.start :=
  Holds.lies h _ mem

/-- Blocks begin at addresses. -/
lemma start_lt (law : Lawful C.toAllocator room Ok) (h : C.Has Ok s F) (mem : (b, o) ∈ F) :
    b.start < 2 ^ 64 := by
  have within := h.within law mem
  rw [Block.stop] at within
  omega

/-- Reads a pointer of an array. -/
lemma ptr_eq {ps : List Nat} {i p : Nat} (h : C.Has Ok s F) (mem : (b, .ptrs ps) ∈ F) (e : ps[i]? = some p) :
    C.ptr s b.start i = p :=
  (h.lies mem).2 i p e

/-- A pointer is written to an array; `ps'` are the pointers then. -/
lemma setPtr_holds (law : Lawful C.toAllocator room Ok) {ps ps' : List Nat} {i p : Nat}
    (h : C.Has Ok s ((b, .ptrs ps) ::ₘ F)) (fits : 8 * ps'.length ≤ b.size) (lt : i < ps'.length) (small : p < 2 ^ 64)
    (upd : ∀ j q, ps'[j]? = some q → (j = i ∧ q = p) ∨ (j ≠ i ∧ ps[j]? = some q)) :
    C.Has Ok (C.setPtr s b.start i p) ((b, .ptrs ps') ::ₘ F) := by
  refine Holds.store law h (fun x out => write_of_ne ?_) fits fun j q e => ?_
  · rw [Block.stop] at out
    omega
  · obtain ⟨rfl, rfl⟩ | ⟨ne, old⟩ := upd j q e
    · exact read_write (by omega)
    · rw [read_write_of_ne (by omega)]
      exact (h.lies (Multiset.mem_cons_self _ _)).2 j q old

/-- A pointer is overwritten. -/
lemma setPtr_spec (law : Lawful C.toAllocator room Ok) {ps : List Nat} {i p : Nat}
    (h : C.Has Ok s ((b, .ptrs ps) ::ₘ F)) (lt : i < ps.length) (small : p < 2 ^ 64) :
    C.Has Ok (C.setPtr s b.start i p) ((b, .ptrs (ps.set i p)) ::ₘ F) := by
  have fits : 8 * ps.length ≤ b.size := (h.lies (Multiset.mem_cons_self _ _)).1
  refine setPtr_holds law h (by rwa [List.length_set]) (by rwa [List.length_set]) small fun j q e => ?_
  rw [List.getElem?_set] at e
  by_cases eq : i = j
  · subst eq
    rw [if_pos rfl, if_pos lt] at e
    exact .inl ⟨rfl, (Option.some.inj e).symm⟩
  · rw [if_neg eq] at e
    exact .inr ⟨Ne.symm eq, e⟩

/-- A pointer is written behind the others. -/
lemma setPtr_append (law : Lawful C.toAllocator room Ok) {ps : List Nat} {p : Nat}
    (h : C.Has Ok s ((b, .ptrs ps) ::ₘ F)) (fits : 8 * (ps.length + 1) ≤ b.size) (small : p < 2 ^ 64) :
    C.Has Ok (C.setPtr s b.start ps.length p) ((b, .ptrs (ps ++ [p])) ::ₘ F) := by
  refine setPtr_holds law h (by simpa using fits) (by simp) small fun j q e => ?_
  by_cases eq : j = ps.length
  · subst eq
    rw [List.getElem?_concat_length] at e
    exact .inl ⟨rfl, (Option.some.inj e).symm⟩
  · obtain ⟨lt, -⟩ := List.getElem?_eq_some_iff.1 e
    rw [List.length_append, List.length_singleton] at lt
    rw [List.getElem?_append_left (by omega)] at e
    exact .inr ⟨eq, e⟩

/-- Reads a string. -/
lemma str_eq (law : Lawful C.toAllocator room Ok) {l : List UInt8} (h : C.Has Ok s F) (mem : (b, .str l) ∈ F) :
    str (C.mem s) b.start = l := by
  obtain ⟨size, lies⟩ := h.lies mem
  have within := h.within law mem
  rw [Obj.size] at size
  rw [Block.stop] at within
  exact StrAt.strLoop lies (by omega)

/-- A string is copied to a new block. -/
lemma strcpy_spec (law : Lawful C.toAllocator room Ok) {l : List UInt8} (h : C.Has Ok s ((b, .raw) ::ₘ F))
    (fits : l.length + 1 ≤ b.size) (none : 0 ∉ l) :
    C.Has Ok (C.setMem s (strcpy (C.mem s) b.start l)) ((b, .str l) ::ₘ F) := by
  refine Holds.store law h (fun x out => strcpy_of_ne ?_) fits (strAt_strcpy none)
  rw [Block.stop] at out
  omega

section Record

variable {p n k : Nat}

/-- Reads the field `array`. -/
lemma array_eq (h : C.Has Ok s F) (mem : (b, .sarr p n k) ∈ F) : C.array s b.start = p := (h.lies mem).2.1

/-- Reads the field `num`. -/
lemma num_eq (h : C.Has Ok s F) (mem : (b, .sarr p n k) ∈ F) : C.num s b.start = n := (h.lies mem).2.2.1

/-- Reads the field `allocSize`. -/
lemma allocSize_eq (h : C.Has Ok s F) (mem : (b, .sarr p n k) ∈ F) : C.allocSize s b.start = k := (h.lies mem).2.2.2

/-- A field of a record is written. -/
lemma setField_holds (off : Nat) (law : Lawful C.toAllocator room Ok) {len v p' n' k' : Nat}
    (h : C.Has Ok s ((b, o) ::ₘ F)) (size : 16 ≤ b.size) (inside : off + len ≤ 16)
    (lies : (Obj.sarr p' n' k').lies (write (C.mem s) len (b.start + off) v) b.start) :
    C.Has Ok (C.setMem s (write (C.mem s) len (b.start + off) v)) ((b, .sarr p' n' k') ::ₘ F) := by
  refine Holds.store law h (fun x out => write_of_ne ?_) size lies
  rw [Block.stop] at out
  omega

/-- Writes the field `array`. -/
lemma setArray_spec (law : Lawful C.toAllocator room Ok) {q : Nat} (h : C.Has Ok s ((b, .sarr p n k) ::ₘ F))
    (small : q < 2 ^ 64) : C.Has Ok (C.setArray s b.start q) ((b, .sarr q n k) ::ₘ F) := by
  obtain ⟨size, -, num, alloc⟩ := h.lies (Multiset.mem_cons_self _ _)
  refine setField_holds 0 law h size (by omega) ⟨read_write (by omega), ?_, ?_⟩
  · rwa [read_write_of_ne (by omega)]
  · rwa [read_write_of_ne (by omega)]

/-- Writes the field `num`. -/
lemma setNum_spec (law : Lawful C.toAllocator room Ok) {i : Nat} (h : C.Has Ok s ((b, .sarr p n k) ::ₘ F))
    (small : i < 2 ^ 31) : C.Has Ok (C.setNum s b.start i) ((b, .sarr p i k) ::ₘ F) := by
  obtain ⟨size, array, -, alloc⟩ := h.lies (Multiset.mem_cons_self _ _)
  refine setField_holds 8 law h size (by omega) ⟨?_, read_write (by omega), ?_⟩
  · rwa [read_write_of_ne (by omega)]
  · rwa [read_write_of_ne (by omega)]

/-- Writes the field `allocSize`. -/
lemma setAllocSize_spec (law : Lawful C.toAllocator room Ok) {i : Nat} (h : C.Has Ok s ((b, .sarr p n k) ::ₘ F))
    (small : i < 2 ^ 31) : C.Has Ok (C.setAllocSize s b.start i) ((b, .sarr p n i) ::ₘ F) := by
  obtain ⟨size, array, num, -⟩ := h.lies (Multiset.mem_cons_self _ _)
  refine setField_holds 12 law h size (by omega) ⟨?_, ?_, read_write (by omega)⟩
  · rwa [read_write_of_ne (by omega)]
  · rwa [read_write_of_ne (by omega)]

end Record

/-- A `strArray_t` in memory: the record, the array, `allocSize` and the pointers. -/
structure SArr where
  head : Block
  body : Option Block
  cap : Nat
  ps : List Nat

/-- The objects of the array. -/
def SArr.cells (x : SArr) : Multiset (Block × Obj) :=
  match x.body with
  | none => {(x.head, .sarr 0 x.ps.length x.cap)}
  | some b => (x.head, .sarr b.start x.ps.length x.cap) ::ₘ {(b, .ptrs x.ps)}

/-- There is room for `allocSize` pointers. -/
def SArr.Fits (x : SArr) : Prop :=
  match x.body with
  | none => x.cap = 0 ∧ x.ps = []
  | some b => 0 < x.cap ∧ x.ps.length ≤ x.cap ∧ 8 * x.cap ≤ b.size ∧ x.cap < 2 ^ 31

/-- Other pointers, as many as before. -/
lemma SArr.fits_of_length (x : SArr) (fits : x.Fits) {ps : List Nat} (length : ps.length = x.ps.length) :
    (SArr.mk x.head x.body x.cap ps).Fits := by
  obtain ⟨head, body, cap, ps'⟩ := x
  cases body with
  | none =>
    obtain ⟨rfl, rfl⟩ : cap = 0 ∧ ps' = [] := fits
    exact ⟨rfl, List.length_eq_zero_iff.1 length⟩
  | some b =>
    obtain ⟨pos, le, size, lt⟩ : 0 < cap ∧ ps'.length ≤ cap ∧ 8 * cap ≤ b.size ∧ cap < 2 ^ 31 := fits
    exact ⟨pos, length.trans_le le, size, lt⟩

/-- The condition of `strArrayPush` is right. -/
def Client.FullOk (C : Client σ) : Prop := ∀ n k, (C.full n k = true → k ≤ n) ∧ (C.full n k = false → n ≤ k)

/-- `strArrayInit(0)`. -/
lemma strArrayInit_spec (law : Lawful C.toAllocator room Ok) (h : C.Has Ok s F) :
    Outcome room count (C.strArrayInit s 0) fun r =>
      ∃ b : Block, r.2 = b.start ∧ C.Has Ok r.1 ((SArr.mk b none 0 []).cells + F) := by
  rw [Client.strArrayInit]
  refine (allocate_spec law h (by decide) (by decide)).bind ?_
  rintro ⟨s₁, _⟩ ⟨b, rfl, size, h₁⟩
  dsimp only at h₁ ⊢
  -- the record holds what has been there
  have h₂ : C.Has Ok s₁ ((b, .sarr _ _ _) ::ₘ F) := h₁.view size fun _ => ⟨rfl, rfl, rfl⟩
  have h₃ := setArray_spec law h₂ (Nat.two_pow_pos 64)
  have h₄ := setNum_spec law h₃ (Nat.two_pow_pos 31)
  have h₅ := setAllocSize_spec law h₄ (Nat.two_pow_pos 31)
  rw [if_neg (Nat.lt_irrefl 0)]
  exact .ok ⟨b, rfl, h₅⟩

/-- A pointer that is read is a word. -/
lemma ptr_lt (C : Client σ) (s : σ) (array i : Nat) : C.ptr s array i < 2 ^ 64 := read_lt (C.mem s) 8 _

/-- The pointers from `i` on are copied to the new array. -/
lemma copyLoop_spec (law : Lawful C.toAllocator room Ok) {head q : Block} {ps : List Nat} {k n i : Nat}
    (h : C.Has Ok s ((head, .sarr q.start ps.length k) ::ₘ (q, .ptrs (ps.take i)) ::ₘ (b, .ptrs ps) ::ₘ F))
    (rest : i + n = ps.length) (fits : 8 * ps.length ≤ q.size) :
    C.Has Ok (C.copyLoop head.start b.start n i s)
      ((head, .sarr q.start ps.length k) ::ₘ (q, .ptrs ps) ::ₘ (b, .ptrs ps) ::ₘ F) := by
  induction n generalizing s i with
  | zero =>
    rw [Client.copyLoop]
    rwa [List.take_of_length_le (by omega)] at h
  | succ n ih =>
    have lt : i < ps.length := by omega
    have at_ : ps[i]? = some ps[i] := List.getElem?_eq_getElem lt
    have length : (ps.take i).length = i := List.length_take_of_le lt.le
    have mem : (b, Obj.ptrs ps) ∈ (head, Obj.sarr q.start ps.length k) ::ₘ (q, Obj.ptrs (ps.take i)) ::ₘ
        (b, Obj.ptrs ps) ::ₘ F := by simp
    have eq := ptr_eq h mem at_
    have small : ps[i] < 2 ^ 64 := eq ▸ ptr_lt C s b.start i
    rw [Client.copyLoop, array_eq h (Multiset.mem_cons_self _ _), eq]
    rw [Multiset.cons_swap] at h
    have h' := setPtr_append law h (by rw [length]; omega) small
    rw [length, List.take_concat_get' ps i lt, Multiset.cons_swap] at h'
    exact ih h' (by omega)

/-- The array grows. -/
lemma grow_spec (law : Lawful C.toAllocator room Ok) {x : SArr} (h : C.Has Ok s (x.cells + F)) (fits : x.Fits)
    (many : x.cap ≤ count) :
    Outcome room count (C.grow s x.head.start) fun s' => ∃ x' : SArr, x'.head = x.head ∧ x'.ps = x.ps ∧
      C.Has Ok s' (x'.cells + F) ∧ x'.Fits ∧ x'.ps.length + 1 ≤ x'.cap := by
  obtain ⟨head, body, cap, ps⟩ := x
  rw [Client.grow]
  cases body with
  | none =>
    obtain ⟨rfl, rfl⟩ : cap = 0 ∧ ps = [] := fits
    have h₀ : C.Has Ok s ((head, .sarr 0 0 0) ::ₘ F) := h
    dsimp only
    rw [array_eq h₀ (Multiset.mem_cons_self _ _), allocSize_eq h₀ (Multiset.mem_cons_self _ _)]
    refine Outcome.bind (P := fun n => n = 0) (.ok rfl) ?_
    rintro _ rfl
    have h₁ := setAllocSize_spec (i := 0) law h₀ (Nat.two_pow_pos 31)
    rw [if_pos (allocSize_eq h₁ (Multiset.mem_cons_self _ _))]
    have h₂ := setAllocSize_spec (i := 2) law h₁ (by decide)
    rw [allocSize_eq h₂ (Multiset.mem_cons_self _ _)]
    refine (allocate_spec law h₂ (by decide) (by decide)).bind ?_
    rintro ⟨s₃, _⟩ ⟨q, rfl, size, h₃⟩
    dsimp only at h₃ ⊢
    rw [if_neg (not_not.2 rfl)]
    have small := start_lt law h₃ (Multiset.mem_cons_self _ _)
    have h₄ : C.Has Ok s₃ ((q, .ptrs []) ::ₘ (head, .sarr 0 0 2) ::ₘ F) :=
      h₃.view (Nat.zero_le _) fun _ i p e => by cases e
    rw [Multiset.cons_swap] at h₄
    have h₅ := setArray_spec law h₄ small
    refine .ok ⟨⟨head, some q, 2, []⟩, rfl, rfl, ?_, ?_, (by decide : 0 + 1 ≤ 2)⟩
    · exact h₅.of_eq (by simp [SArr.cells])
    · exact ⟨(by decide : 0 < 2), (by decide : 0 ≤ 2), size, (by decide : 2 < 2 ^ 31)⟩
  | some b =>
    obtain ⟨pos, le, room', lt⟩ : 0 < cap ∧ ps.length ≤ cap ∧ 8 * cap ≤ b.size ∧ cap < 2 ^ 31 := fits
    have h₀ : C.Has Ok s ((head, .sarr b.start ps.length cap) ::ₘ (b, .ptrs ps) ::ₘ F) :=
      h.of_eq (by simp [SArr.cells])
    have old := h₀.within law (b := b) (o := .ptrs ps) (by simp)
    dsimp only at many ⊢
    rw [array_eq h₀ (Multiset.mem_cons_self _ _), allocSize_eq h₀ (Multiset.mem_cons_self _ _)]
    refine (toInt_spec fun large => ⟨by omega, by omega⟩).bind ?_
    rintro _ ⟨rfl, small⟩
    have h₁ := setAllocSize_spec (i := cap * 2) law h₀ small
    have size₁ := allocSize_eq h₁ (Multiset.mem_cons_self _ _)
    rw [if_neg (by omega), size₁, wmul_of_lt (by omega)]
    refine (allocate_spec law h₁ (by omega) (by omega)).bind ?_
    rintro ⟨s₂, _⟩ ⟨q, rfl, size, h₂⟩
    dsimp only at h₂ ⊢
    have start := start_lt law h₂ (Multiset.mem_cons_self _ _)
    have h₃ : C.Has Ok s₂ ((q, .ptrs []) ::ₘ (head, .sarr b.start ps.length (cap * 2)) ::ₘ (b, .ptrs ps) ::ₘ F) :=
      h₂.view (Nat.zero_le _) fun _ i p e => by cases e
    rw [Multiset.cons_swap] at h₃
    have h₄ := setArray_spec law h₃ start
    rw [if_pos old.1.ne', num_eq h₄ (Multiset.mem_cons_self _ _)]
    have h₅ := copyLoop_spec (i := 0) (n := ps.length) law h₄ (Nat.zero_add _) (by omega)
    have h₆ : C.Has Ok _ ((b, .ptrs ps) ::ₘ (head, .sarr q.start ps.length (cap * 2)) ::ₘ (q, .ptrs ps) ::ₘ F) :=
      h₅.of_eq (by rw [Multiset.cons_swap (q, _), Multiset.cons_swap])
    obtain ⟨s₇, e, h₇⟩ := release_spec law h₆
    refine .of_eq e ⟨⟨head, some q, cap * 2, ps⟩, rfl, rfl, ?_, ?_, ?_⟩
    · exact h₇.of_eq (by simp [SArr.cells])
    · refine ⟨?_, ?_, ?_, small⟩
      · dsimp only
        omega
      · dsimp only
        omega
      · dsimp only
        omega
    · dsimp only
      omega

/-- The record of an array of strings is among its cells. -/
lemma SArr.record_mem (x : SArr) : ∃ p, (x.head, Obj.sarr p x.ps.length x.cap) ∈ x.cells + F := by
  obtain ⟨head, body, cap, ps⟩ := x
  cases body with
  | none => exact ⟨0, by simp [SArr.cells]⟩
  | some b => exact ⟨b.start, by simp [SArr.cells]⟩

/-- The number of its strings. -/
lemma SArr.num_eq {x : SArr} (h : C.Has Ok s (x.cells + F)) : C.num s x.head.start = x.ps.length := by
  obtain ⟨p, mem⟩ := x.record_mem
  exact Lab1.num_eq h mem

/-- Its capacity. -/
lemma SArr.allocSize_eq {x : SArr} (h : C.Has Ok s (x.cells + F)) : C.allocSize s x.head.start = x.cap := by
  obtain ⟨p, mem⟩ := x.record_mem
  exact Lab1.allocSize_eq h mem

/-- The pointers of an array take room. -/
lemma SArr.length_le (law : Lawful C.toAllocator room Ok) {x : SArr} (h : C.Has Ok s (x.cells + F)) (fits : x.Fits) :
    x.ps.length < 2 ^ 31 ∧ x.ps.length ≤ x.cap ∧ 8 * x.cap ≤ room := by
  obtain ⟨head, body, cap, ps⟩ := x
  cases body with
  | none =>
    obtain ⟨rfl, rfl⟩ : cap = 0 ∧ ps = [] := fits
    exact ⟨Nat.two_pow_pos 31, le_rfl, Nat.zero_le _⟩
  | some b =>
    obtain ⟨pos, le, room', lt⟩ : 0 < cap ∧ ps.length ≤ cap ∧ 8 * cap ≤ b.size ∧ cap < 2 ^ 31 := fits
    have within := h.within law (b := b) (o := .ptrs ps) (by simp [SArr.cells])
    exact ⟨by dsimp only; omega, le, by dsimp only; omega⟩

/-- A string is appended. -/
lemma strArrayPush_spec (law : Lawful C.toAllocator room Ok) (full : C.FullOk) {x : SArr} {p : Nat}
    (h : C.Has Ok s (x.cells + F)) (fits : x.Fits) (small : p < 2 ^ 64) (many : x.ps.length + 1 ≤ count) :
    Outcome room count (C.strArrayPush s x.head.start p) fun s' => ∃ x' : SArr, x'.head = x.head ∧
      x'.ps = x.ps ++ [p] ∧ C.Has Ok s' (x'.cells + F) ∧ x'.Fits := by
  obtain ⟨lt, le, large⟩ := x.length_le law h fits
  rw [Client.strArrayPush, x.num_eq h]
  refine (toInt_spec fun large => ⟨by omega, by omega⟩).bind ?_
  rintro _ ⟨rfl, lt'⟩
  -- there is room for one more
  have room' : Outcome room count
      (if C.full (x.ps.length + 1) (C.allocSize s x.head.start) = true then C.grow s x.head.start else .ok s)
      fun s' => ∃ x' : SArr, x'.head = x.head ∧ x'.ps = x.ps ∧ C.Has Ok s' (x'.cells + F) ∧ x'.Fits ∧
        x'.ps.length + 1 ≤ x'.cap := by
    rw [x.allocSize_eq h]
    obtain ⟨yes, no⟩ := full (x.ps.length + 1) x.cap
    by_cases f : C.full (x.ps.length + 1) x.cap = true
    · rw [if_pos f]
      exact grow_spec law h fits ((yes f).trans many)
    · rw [if_neg f]
      exact .ok ⟨x, rfl, rfl, h, fits, no (Bool.not_eq_true _ ▸ f)⟩
  refine room'.bind ?_
  rintro s₁ ⟨x', same_head, same_ps, h₁, fits', more⟩
  rw [← same_head, ← same_ps]
  rw [← same_ps] at lt'
  obtain ⟨head, body, cap, ps⟩ := x'
  dsimp only at more lt' ⊢
  cases body with
  | none =>
    obtain ⟨rfl, -⟩ : cap = 0 ∧ ps = [] := fits'
    omega
  | some b =>
    obtain ⟨pos, -, size, lt⟩ : 0 < cap ∧ ps.length ≤ cap ∧ 8 * cap ≤ b.size ∧ cap < 2 ^ 31 := fits'
    have h₂ : C.Has Ok s₁ ((b, .ptrs ps) ::ₘ (head, .sarr b.start ps.length cap) ::ₘ F) :=
      h₁.of_eq (by simp [SArr.cells, Multiset.cons_swap])
    have record : (head, Obj.sarr b.start ps.length cap) ∈
        (b, Obj.ptrs ps) ::ₘ (head, Obj.sarr b.start ps.length cap) ::ₘ F := by simp
    rw [array_eq h₂ record, Lab1.num_eq h₂ record]
    have h₃ := setPtr_append law h₂ (by omega) small
    rw [Multiset.cons_swap] at h₃
    have h₄ := setNum_spec law h₃ lt'
    refine .ok ⟨⟨head, some b, cap, ps ++ [p]⟩, rfl, rfl, ?_, ?_⟩
    · exact h₄.of_eq (by simp [SArr.cells])
    · exact ⟨pos, by simpa using more, size, lt⟩

end Rules

end PDS.Lab1
