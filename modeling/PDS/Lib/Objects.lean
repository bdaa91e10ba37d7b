import PDS.Lib.Extent

/-!
# Objects on a heap

A program works on objects that it keeps in blocks of memory from an allocator. `Allocator` is the interface of an
allocator together with the memory it manages, `Lawful` is its contract, on the multiset of the blocks that are live.

`Kind` says how an object of a type `O` lies in memory; it may use only the bytes of the object. `Holds s cells` then says
that in the state `s` the live blocks hold the objects of `cells`. The rules allocate, free and overwrite one object and
leave the others alone.
-/

namespace Objects
open PDS.Extent

abbrev Mem := Nat → UInt8

/-- The number in `n` bytes, lowest byte first. -/
def read (m : Mem) : Nat → Nat → Nat
  | 0, _ => 0
  | n + 1, a => (m a).toNat + 256 * read m n (a + 1)

/-- Overwrites `n` bytes with a number. -/
def write (m : Mem) : Nat → Nat → Nat → Mem
  | 0, _, _ => m
  | n + 1, a, v => write (Function.update m a (.ofNat v)) n (a + 1) (v / 256)

variable {m m' : Mem} {n a a' v x : Nat}

/-- A number of `n` bytes is below `256 ^ n`. -/
lemma read_lt (m : Mem) (n a : Nat) : read m n a < 256 ^ n := by
  induction n generalizing a with
  | zero => exact Nat.one_pos
  | succ n ih =>
    have first := (m a).toNat_lt
    have rest := ih (a + 1)
    rw [read, pow_succ']
    omega

/-- A write leaves the other bytes alone. -/
lemma write_of_ne (out : x < a ∨ a + n ≤ x) : write m n a v x = m x := by
  induction n generalizing m a v with
  | zero => rfl
  | succ n ih =>
    rw [write, ih (by omega)]
    exact Function.update_of_ne (by omega) _ _

/-- What is read depends on its own bytes only. -/
lemma read_congr (same : ∀ k < n, m' (a' + k) = m (a + k)) : read m' n a' = read m n a := by
  induction n generalizing a a' with
  | zero => rfl
  | succ n ih =>
    have first : m' a' = m a := same 0 (Nat.succ_pos n)
    rw [read, read, first]
    congr 2
    apply ih
    intro k lt
    rw [Nat.add_assoc, Nat.add_comm 1, Nat.add_assoc, Nat.add_comm 1]
    exact same (k + 1) (Nat.succ_lt_succ lt)

/-- What has been written is read. -/
lemma read_write (lt : v < 256 ^ n) : read (write m n a v) n a = v := by
  induction n generalizing m a v with
  | zero =>
    rw [pow_zero] at lt
    exact (Nat.lt_one_iff.1 lt).symm
  | succ n ih =>
    have rest : v / 256 < 256 ^ n := Nat.div_lt_of_lt_mul (by rwa [pow_succ'] at lt)
    rw [read, write, ih rest, write_of_ne (.inl (Nat.lt_succ_self a)), Function.update_self, UInt8.toNat_ofNat']
    omega

/-- A number that has not been overwritten. -/
lemma read_write_of_ne {k : Nat} (out : a + n ≤ a' ∨ a' + k ≤ a) : read (write m n a v) k a' = read m k a' :=
  read_congr fun _ _ => write_of_ne (by omega)

/-- An allocator with its memory. `none` is a call that does not return, the address `0` is one that fails. -/
structure Allocator (σ : Type) where
  alloc : σ → Nat → Option (σ × Nat)
  free : σ → Nat → Option σ
  mem : σ → Mem
  setMem : σ → Mem → σ

variable {σ O : Type}

/-- The blocks `l` hold the same bytes. -/
def Keeps (A : Allocator σ) (s s' : σ) (l : Multiset Block) : Prop := ∀ b ∈ l, ∀ x, b.Has x → A.mem s' x = A.mem s x

/-- The contract of an allocator: `Ok s l` says that `l` are the live blocks. They are disjoint and no larger than `room`;
a new one is large enough; what is live keeps its bytes. -/
structure Lawful (A : Allocator σ) (room : Nat) (Ok : σ → Multiset Block → Prop) : Prop where
  apart : ∀ s b l, Ok s (b ::ₘ l) → ∀ c ∈ l, b.Apart c
  within : ∀ s l, Ok s l → ∀ b ∈ l, 0 < b.start ∧ b.stop < 2 ^ 64 ∧ b.size ≤ room
  setMem : ∀ s l m, Ok s l → Ok (A.setMem s m) l
  mem_setMem : ∀ s m, A.mem (A.setMem s m) = m
  alloc : ∀ s l n, Ok s l → 0 < n → n + 7 < 2 ^ 64 → ∃ s' p, A.alloc s n = some (s', p) ∧
    (p = 0 ∨ ∃ size, n ≤ size ∧ Ok s' (⟨p, size⟩ ::ₘ l) ∧ Keeps A s s' l)
  free : ∀ s b l, Ok s (b ::ₘ l) → ∃ s', A.free s b.start = some s' ∧ Ok s' l ∧ Keeps A s s' l

/-- How objects lie in memory: only their bytes count, wherever they are. -/
structure Kind (O : Type) where
  lies : Mem → Nat → O → Prop
  size : O → Nat
  move : ∀ {m m' a a' o}, lies m a o → (∀ k < size o, m' (a' + k) = m (a + k)) → lies m' a' o

/-- The live blocks hold the objects. -/
structure Holds (A : Allocator σ) (Ok : σ → Multiset Block → Prop) (K : Kind O) (s : σ)
    (cells : Multiset (Block × O)) : Prop where
  ok : Ok s (cells.map Prod.fst)
  lies : ∀ c ∈ cells, K.size c.2 ≤ c.1.size ∧ K.lies (A.mem s) c.1.start c.2

section Rules

variable {A : Allocator σ} {room : Nat} {Ok : σ → Multiset Block → Prop} {K : Kind O} {s s' : σ}
  {cells cells' : Multiset (Block × O)} {b : Block} {o o' : O}

/-- The cells may be given in another form. -/
lemma Holds.of_eq (h : Holds A Ok K s cells) (eq : cells = cells') : Holds A Ok K s cells' := eq ▸ h

/-- What is kept still lies there. -/
lemma lies_of_keeps (lies : ∀ c ∈ cells, K.size c.2 ≤ c.1.size ∧ K.lies (A.mem s) c.1.start c.2)
    (keeps : Keeps A s s' (cells.map Prod.fst)) :
    ∀ c ∈ cells, K.size c.2 ≤ c.1.size ∧ K.lies (A.mem s') c.1.start c.2 := by
  intro c hc
  obtain ⟨le, at_⟩ := lies c hc
  refine ⟨le, K.move at_ fun k lt => keeps c.1 (Multiset.mem_map_of_mem _ hc) _ ⟨Nat.le_add_right _ _, ?_⟩⟩
  rw [Block.stop]
  omega

/-- A block is allocated; there is an object in it that needs no bytes. -/
lemma Holds.alloc (law : Lawful A room Ok) (h : Holds A Ok K s cells) (pos : 0 < n) (lt : n + 7 < 2 ^ 64)
    (size : K.size o = 0) (lies : ∀ m a, K.lies m a o) :
    ∃ s' p, A.alloc s n = some (s', p) ∧
      (p = 0 ∨ ∃ b : Block, b.start = p ∧ n ≤ b.size ∧ Holds A Ok K s' ((b, o) ::ₘ cells)) := by
  obtain ⟨s', p, e, new⟩ := law.alloc s _ n h.ok pos lt
  refine ⟨s', p, e, new.imp_right ?_⟩
  rintro ⟨k, le, ok, keeps⟩
  refine ⟨⟨p, k⟩, rfl, le, by rwa [Multiset.map_cons], ?_⟩
  intro c hc
  cases Multiset.mem_cons.1 hc with
  | inl eq =>
    rw [eq, size]
    exact ⟨Nat.zero_le _, lies _ _⟩
  | inr hc => exact lies_of_keeps h.lies keeps c hc

/-- An object is freed. -/
lemma Holds.free (law : Lawful A room Ok) (h : Holds A Ok K s ((b, o) ::ₘ cells)) :
    ∃ s', A.free s b.start = some s' ∧ Holds A Ok K s' cells := by
  have ok := h.ok
  rw [Multiset.map_cons] at ok
  obtain ⟨s', e, ok', keeps⟩ := law.free s b _ ok
  exact ⟨s', e, ok', lies_of_keeps (fun c hc => h.lies c (Multiset.mem_cons_of_mem hc)) keeps⟩

/-- An object is overwritten. -/
lemma Holds.store (law : Lawful A room Ok) (h : Holds A Ok K s ((b, o) ::ₘ cells))
    (out : ∀ x, x < b.start ∨ b.stop ≤ x → m x = A.mem s x) (size : K.size o' ≤ b.size) (lies : K.lies m b.start o') :
    Holds A Ok K (A.setMem s m) ((b, o') ::ₘ cells) := by
  have ok := h.ok
  rw [Multiset.map_cons] at ok
  refine ⟨?_, ?_⟩
  · rw [Multiset.map_cons]
    exact law.setMem s _ m ok
  · intro c hc
    rw [law.mem_setMem]
    cases Multiset.mem_cons.1 hc with
    | inl eq =>
      rw [eq]
      exact ⟨size, lies⟩
    | inr hc =>
      obtain ⟨le, at_⟩ := h.lies c (Multiset.mem_cons_of_mem hc)
      have apart := law.apart s b _ ok c.1 (Multiset.mem_map_of_mem _ hc)
      refine ⟨le, K.move at_ fun k lt => out _ ?_⟩
      rw [Block.Apart, Block.stop, Block.stop] at apart
      rw [Block.stop]
      omega

/-- An object is seen as another one that lies there. -/
lemma Holds.view (h : Holds A Ok K s ((b, o) ::ₘ cells)) (size : K.size o' ≤ b.size)
    (lies : K.lies (A.mem s) b.start o → K.lies (A.mem s) b.start o') : Holds A Ok K s ((b, o') ::ₘ cells) := by
  refine ⟨?_, ?_⟩
  · have ok := h.ok
    rwa [Multiset.map_cons] at ok ⊢
  · intro c hc
    cases Multiset.mem_cons.1 hc with
    | inl eq =>
      rw [eq]
      exact ⟨size, lies (h.lies _ (Multiset.mem_cons_self _ _)).2⟩
    | inr hc => exact h.lies c (Multiset.mem_cons_of_mem hc)

/-- A block that is held lies within the memory. -/
lemma Holds.within (law : Lawful A room Ok) (h : Holds A Ok K s cells) (mem : (b, o) ∈ cells) :
    0 < b.start ∧ b.stop < 2 ^ 64 ∧ b.size ≤ room :=
  law.within s _ h.ok b (Multiset.mem_map_of_mem Prod.fst mem)

end Rules

end Objects
