import PDS.Lab1.HeapRun

/-!
# Where the heap places a request

`heapAlloc` takes the front of the block that the policy prefers (`HeapPolicy.Prefers`) among the free blocks that are
large enough. A request within seven bytes of `SIZE_MAX` is rounded up to `0`, though: it takes nothing off a free block
and is answered with the start of it. Up to such a request every pointer that `heapAlloc` returns is the start of a block
as large as asked for (`heapAlloc_honest_iff`).
-/

namespace PDS.Lab1
open Word Links Extent

/-- The policy would rather take the first block than the second. -/
def HeapPolicy.Prefers : HeapPolicy → Block → Block → Prop
  | .firstFit, b, c => b.start ≤ c.start
  | .bestFit, b, c => b.size < c.size ∨ (b.size = c.size ∧ b.start ≤ c.start)
  | .worstFit, b, c => c.size < b.size ∨ (b.size = c.size ∧ b.start ≤ c.start)

namespace Heap

variable {h : Heap} {fl ul dl : List Nat} {n : Nat}

/-- The free list is sorted by address. -/
lemma Inv.start_le {p q : List Nat} {s : Nat} (inv : h.Inv (p ++ s :: q) ul dl) {i : Nat} (hi : i ∈ q) :
    (h.blk s).start ≤ (h.blk i).start := by
  have ord := inv.arena.layout.free_ordered
  simp only [arena_blk, List.map_append, List.map_cons] at ord
  have le := (ordered_middle.1 ord).2.2 _ (List.mem_map_of_mem hi)
  exact (Nat.le_add_right _ _).trans le

/-- A search for the least size in the order `lt` finds the first block of this size. -/
lemma Inv.pick_prefers (inv : h.Inv fl ul dl) (lt : Nat → Nat → Bool) {k : Nat} {prev : Option Nat} {s : Nat}
    (irrefl : ∀ x, ¬ lt x x) (trans : ∀ x y z, lt x y → lt y z → lt x z)
    (tri : ∀ x y z, lt x z → ¬ lt y z → lt x y)
    (sel : pick h.next (fun i best => n ≤ (h.blk i).size && lt (h.blk i).size best) (fun i => (h.blk i).size)
      h.fuel none h.freeBlks none k = some (some (prev, s))) :
    ∀ i ∈ fl, n ≤ (h.blk i).size → lt (h.blk s).size (h.blk i).size ∨
      (¬ lt (h.blk i).size (h.blk s).size ∧ (h.blk s).start ≤ (h.blk i).start) := by
  have free : Chain h.next h.freeBlks fl := inv.arena.free
  rcases pick_least lt (fun i => n ≤ (h.blk i).size) (fun i => (h.blk i).size) none none k trans tri free
      inv.free_fuel with ⟨e, -⟩ | ⟨a, j, b, rfl, -, -, e, before, after⟩
  · cases sel.symm.trans e
  · cases sel.symm.trans e
    intro i hi fits
    have good : decide (n ≤ (h.blk i).size) = true := by simpa using fits
    rcases List.mem_append.1 hi with mem | mem
    · exact .inl (before i mem good)
    · cases mem with
      | head => exact .inr ⟨irrefl _, le_rfl⟩
      | tail _ mem => exact .inr ⟨after i mem good, inv.start_le mem⟩

/-- The policy switch finds the block that the policy prefers. -/
lemma Inv.select_prefers (inv : h.Inv fl ul dl) {prev : Option Nat} {s : Nat}
    (sel : h.select n = some (some (prev, s))) :
    ∀ i ∈ fl, n ≤ (h.blk i).size → h.policy.Prefers (h.blk s) (h.blk i) := by
  have fuel := inv.free_fuel
  have free : Chain h.next h.freeBlks fl := inv.arena.free
  rw [Heap.select] at sel
  cases policy : h.policy with
  | firstFit =>
    rw [policy] at sel
    obtain ⟨a, b, rfl, before, -, e⟩ := walk_spec (fun i => ! n ≤ (h.blk i).size) none free fuel
    rw [e] at sel
    cases b with
    | nil => cases sel
    | cons j b =>
      cases sel
      intro i hi fits
      rcases List.mem_append.1 hi with mem | mem
      · have := before i mem
        simp only [fits, decide_true, Bool.not_true, Bool.false_eq_true] at this
      · cases mem with
        | head => exact le_rfl
        | tail _ mem => exact inv.start_le mem
  | bestFit =>
    rw [policy] at sel
    intro i hi fits
    have best := inv.pick_prefers (fun x y => x < y) (by simp)
      (by simpa using fun x y z => Nat.lt_trans) (by simp; omega) sel i hi fits
    simp only [decide_eq_true_eq] at best
    rw [HeapPolicy.Prefers]
    omega
  | worstFit =>
    rw [policy] at sel
    intro i hi fits
    have worst := inv.pick_prefers (fun x y => y < x) (by simp)
      (by simpa using fun x y z a b => Nat.lt_trans b a) (by simp; omega) sel i hi fits
    simp only [decide_eq_true_eq] at worst
    rw [HeapPolicy.Prefers]
    omega

/-- Null is not the start of a free block. -/
lemma Inv.start_ne_zero (inv : h.Inv fl ul dl) {i : Nat} (hi : i ∈ fl ++ ul) : (h.blk i).start ≠ 0 := by
  have := (inv.within hi).2.1
  have := inv.start_pos
  omega

end Heap

/-- `n` bytes move from the front of the free block `s` to the used list, and nothing else happens. -/
structure Moved (h h' : Heap) (fl ul : List Nat) (s n : Nat) : Prop where
  free : ∃ p q fl', fl = p ++ s :: q ∧ Chain h'.next h'.freeBlks fl' ∧
    fl'.map h'.blk = p.map h.blk ++ ((h.blk s).rest n ++ q.map h.blk)
  used : ∃ a b ul', ul = a ++ b ∧ Chain h'.next h'.usedBlks ul' ∧
    ul'.map h'.blk = a.map h.blk ++ ⟨(h.blk s).start, n⟩ :: b.map h.blk
  policy : h'.policy = h.policy
  bytes : h'.bytes = h.bytes

/-- In every heap reached from `heapCreate` by calls of which no request is rounded up beyond `SIZE_MAX`, a request that is
not rounded up beyond it either is answered with `NULL`, and changes nothing, if and only if it is empty or no free block
is large enough for it. Otherwise it is given the front of the free block that the policy prefers. -/
theorem heapAlloc_places {newHeap node : Bool} {base n : Nat} {h₀ : Heap} {ops : List HeapOp}
    (mk : heapCreate newHeap base node n = some h₀) (hn : 1 ≤ n) (fit : base + n < 2 ^ 64)
    (nw : ∀ op ∈ ops, op.NoWrap) {size : Nat} (nowrap : size + 7 < 2 ^ 64) :
    ∃ h fl ul, heapRun h₀ ops = some h ∧ Chain h.next h.freeBlks fl ∧ Chain h.next h.usedBlks ul ∧
      ∃ h' ptr, heapAlloc h size = some (h', ptr) ∧
        (ptr = 0 ↔ size = 0 ∨ ∀ i ∈ fl, (h.blk i).size < align size) ∧ (ptr = 0 → h' = h) ∧
        (ptr ≠ 0 → ∃ s ∈ fl, align size ≤ (h.blk s).size ∧ ptr = (h.blk s).start ∧
          (∀ i ∈ fl, align size ≤ (h.blk i).size → h.policy.Prefers (h.blk s) (h.blk i)) ∧
          Moved h h' fl ul s (align size)) := by
  obtain ⟨hb, e₀⟩ := heapCreate_inv mk
  obtain ⟨h, fl, ul, dl, run, inv, -, -⟩ := (Heap.inv_init hb hn fit).run nw
  rw [← e₀] at run
  refine ⟨h, fl, ul, run, inv.arena.free, inv.arena.used, ?_⟩
  rcases inv.alloc nowrap with ⟨eq, why⟩ |
    ⟨h', p, s, q, q', a, b, u, rfl, rfl, large, sel, eq, inv', blk, policy, bytes, -, -, free, used⟩
  · exact ⟨h, 0, eq, iff_of_true rfl why, fun _ => rfl, fun ne => absurd rfl ne⟩
  · have mem : s ∈ p ++ s :: q := List.mem_append_right _ List.mem_cons_self
    have ne := inv.start_ne_zero (List.mem_append_left _ mem)
    refine ⟨h', (h.blk s).start, eq, iff_of_false ne ?_, fun zero => absurd zero ne, fun _ => ?_⟩
    · rintro (zero | small)
      · rw [heapAlloc, if_pos zero] at eq
        exact ne (congrArg Prod.snd (Option.some.inj eq)).symm
      · exact absurd (small s mem) large.not_gt
    · refine ⟨s, mem, large, rfl, inv.select_prefers sel, ⟨p, q, p ++ q', rfl, inv'.arena.free, free⟩,
        ⟨a, b, a ++ u :: b, rfl, inv'.arena.used, ?_⟩, policy, bytes⟩
      rw [List.map_append, List.map_cons, blk]
      refine congrArg₂ (· ++ _ :: ·) (List.map_congr_left fun i hi => used i ?_) (List.map_congr_left fun i hi => used i ?_)
      · exact List.mem_append_left _ hi
      · exact List.mem_append_right _ hi

/-- The two requests of a small heap, and where a third one goes. -/
theorem heapAlloc_places_sixteen :
    ∃ h fl ul, heapRun (Heap.init 4096 64) [.alloc 5, .alloc 9, .free 4096, .setPolicy .bestFit] = some h ∧
      Chain h.next h.freeBlks fl ∧ Chain h.next h.usedBlks ul ∧
      ∃ h' ptr, heapAlloc h 3 = some (h', ptr) ∧
        (ptr = 0 ↔ 3 = 0 ∨ ∀ i ∈ fl, (h.blk i).size < align 3) ∧ (ptr = 0 → h' = h) ∧
        (ptr ≠ 0 → ∃ s ∈ fl, align 3 ≤ (h.blk s).size ∧ ptr = (h.blk s).start ∧
          (∀ i ∈ fl, align 3 ≤ (h.blk i).size → h.policy.Prefers (h.blk s) (h.blk i)) ∧
          Moved h h' fl ul s (align 3)) :=
  heapAlloc_places (show heapCreate true 4096 true 64 = some (Heap.init 4096 64) from rfl) (by decide) (by decide)
    (by simp [HeapOp.NoWrap]) (by decide)

/-- Rounding up within seven bytes of `SIZE_MAX` gives `0`. -/
lemma align_wrap {size : Nat} (wrap : 2 ^ 64 ≤ size + 7) (lt : size < 2 ^ 64) : align size = 0 := by
  have e : wadd 64 size 7 = size + 7 - 2 ^ 64 := by
    rw [wadd]
    omega
  rw [align, e, and_highMask (by decide) (by omega)]
  omega

/-- A request is answered with `NULL`, or with the start of a used block that is as large as asked for, lies in the heap
and overlaps no other used block. -/
def Heap.Honest (h : Heap) (size : Nat) : Prop :=
  ∃ h' ptr, heapAlloc h size = some (h', ptr) ∧
    (ptr = 0 ∨ ∃ ul i, Chain h'.next h'.usedBlks ul ∧ i ∈ ul ∧ (h'.blk i).start = ptr ∧ size ≤ (h'.blk i).size ∧
      h'.start ≤ (h'.blk i).start ∧ (h'.blk i).stop ≤ h'.start + h'.size ∧
      ∀ j ∈ ul, j ≠ i → (h'.blk j).Apart (h'.blk i))

namespace Heap

variable {h : Heap} {fl ul dl : List Nat} {size : Nat}

/-- A block of no bytes is put on the used list, at the start of a free block. -/
lemma Inv.alloc_wrap (inv : h.Inv fl ul dl) (wrap : 2 ^ 64 ≤ size + 7) (lt : size < 2 ^ 64)
    (free : h.freeBlks ≠ none) :
    ∃ h' s ul', s ∈ fl ∧ heapAlloc h size = some (h', (h.blk s).start) ∧ Chain h'.next h'.usedBlks ul' ∧
      ∀ i ∈ ul', (h'.blk i).start = (h.blk s).start → (h'.blk i).size = 0 := by
  have zero := align_wrap wrap lt
  rcases inv.select 0 with ⟨-, small⟩ | ⟨p, s, q, rfl, -, sel⟩
  · cases fl with
    | nil => exact absurd inv.arena.free free
    | cons i _ => exact absurd (small i List.mem_cons_self) (Nat.not_lt_zero _)
  · have pos := (inv.within (i := s) (by simp)).1
    obtain ⟨-, ndu, dj⟩ := List.nodup_append.1 inv.arena.nodup
    have fresh : h.brk ∉ ul := fun hi => lt_irrefl _ (inv.bound h.brk (by simp [hi]))
    have old : ∀ i ∈ ul, i ≠ h.brk ∧ i ≠ s := fun i hi => ⟨fun e => fresh (e ▸ hi), fun e => dj s (by simp) i hi e.symm⟩
    -- the new node is the next of the store, and describes no bytes
    obtain ⟨h₁, e₁, next₁, blk₁, new₁, used₁, brk₁⟩ : ∃ h₁, h.detach 0 p.getLast? s = (h₁, h.brk) ∧
        (∀ i ∈ ul, h₁.next i = h.next i) ∧ (∀ i ∈ ul, h₁.blk i = h.blk i) ∧
        h₁.blk h.brk = ⟨(h.blk s).start, 0⟩ ∧ h₁.usedBlks = h.usedBlks ∧ h₁.brk = h.brk + 1 := by
      have ne : h.brk ≠ s := fun e => lt_irrefl _ (inv.bound h.brk (by simp [e]))
      have ag := h.agree_malloc ⟨(h.blk s).start, 0⟩ none
      refine ⟨(h.malloc ⟨(h.blk s).start, 0⟩ none).1.setBlk s
        ⟨wadd 64 (h.blk s).start 0, wsub 64 (h.blk s).size 0⟩, ?_, ?_, ?_, ?_, rfl, rfl⟩
      · rw [Heap.detach, if_neg pos.ne']
        rfl
      · intro i hi
        rw [next_setBlk]
        exact (ag i (by simpa using (old i hi).1)).1
      · intro i hi
        rw [blk_setBlk, Function.update_of_ne (old i hi).2]
        exact (ag i (by simpa using (old i hi).1)).2
      · rw [blk_setBlk, Function.update_of_ne ne]
        exact h.blk_malloc _ _
    have used : Chain h₁.next h₁.usedBlks ul := by
      rw [used₁]
      exact inv.arena.used.frame next₁
    have fuel : ul.length < h₁.fuel := by
      rw [Heap.fuel, brk₁]
      exact inv.used_fuel.trans (Nat.lt_succ_self _)
    obtain ⟨a, b, rfl, -, -, e₂⟩ := walk_spec (fun i => (h₁.blk i).start < (h₁.blk h.brk).start) none used fuel
    rw [lastOr_none] at e₂
    have ar := (h₁.setNext h.brk b.head?).arena_setUsedLink a.getLast? (some h.brk)
    rw [arena_setNext] at ar
    have chain := Arena.attachUsed_used (A := h₁.arena) used ndu fresh
    rw [← ar] at chain
    have blk₂ : ((h₁.setNext h.brk b.head?).setUsedLink a.getLast? (some h.brk)).blk = h₁.blk := congrArg Arena.blk ar
    have ei : h₁.insertUsed h.brk = some ((h₁.setNext h.brk b.head?).setUsedLink a.getLast? (some h.brk)) := by
      rw [insertUsed, e₂]
      rfl
    generalize (h₁.setNext h.brk b.head?).setUsedLink a.getLast? (some h.brk) = h₂ at *
    refine ⟨{ h₂ with freeSize := wsub 64 h₂.freeSize (h₂.blk h.brk).size }, s, a ++ h.brk :: b, by simp, ?_, chain, ?_⟩
    · rw [heapAlloc, if_neg (by omega), zero, if_neg (by simpa using free), sel]
      simp only [Option.bind_eq_bind, Option.bind_some, e₁, ei, blk₂, new₁]
    · intro i hi start
      have start' : (h₂.blk i).start = (h.blk s).start := start
      show (h₂.blk i).size = 0
      rw [blk₂] at start' ⊢
      by_cases new : i = h.brk
      · rw [new, new₁]
      · have mem : i ∈ a ++ b := by
          simp only [List.mem_append, List.mem_cons] at hi ⊢
          tauto
        -- a used block does not start where a free one does
        rw [blk₁ i mem] at start' ⊢
        have apart := inv.arena.layout.apart (h.blk s) (List.mem_map_of_mem (by simp)) (h.blk i) (List.mem_map_of_mem mem)
        simp only [Block.Apart, Block.stop] at apart
        omega

/-- What `heapAlloc` does with a request is what the caller expects of it if rounding up does not wrap, or if there is
nothing to be had. -/
lemma Inv.honest_iff (inv : h.Inv fl ul dl) (lt : size < 2 ^ 64) :
    h.Honest size ↔ size + 7 < 2 ^ 64 ∨ h.freeBlks = none := by
  constructor
  · rintro ⟨h', ptr, eq, honest⟩
    by_contra bad
    rw [not_or, Nat.not_lt] at bad
    obtain ⟨h'', s, ul', mem, eq', used, zero⟩ := inv.alloc_wrap bad.1 lt bad.2
    cases eq.symm.trans eq'
    rcases honest with null | ⟨ul'', i, used', mem', start, large, -⟩
    · exact inv.start_ne_zero (List.mem_append_left _ mem) null
    · cases used.unique used'
      have := zero i mem' start
      omega
  · intro good
    by_cases nowrap : size + 7 < 2 ^ 64
    · rcases inv.alloc nowrap with ⟨eq, -⟩ |
        ⟨h', p, s, q, q', a, b, u, rfl, rfl, large, sel, eq, inv', blk, policy, bytes, start, sz, free, used⟩
      · exact ⟨h, 0, eq, .inl rfl⟩
      · obtain ⟨le, -, -⟩ := align_spec nowrap
        have mem : u ∈ a ++ u :: b := List.mem_append_right _ List.mem_cons_self
        obtain ⟨-, lo, hi⟩ := inv'.within (List.mem_append_right _ mem)
        refine ⟨h', _, eq, .inr ⟨a ++ u :: b, u, inv'.arena.used, mem, by rw [blk], ?_, lo, hi, ?_⟩⟩
        · rw [blk]
          exact le
        · intro j mem' ne
          have ord := inv'.arena.layout.used_ordered
          simp only [arena_blk, List.map_append, List.map_cons] at ord
          obtain ⟨-, before, after⟩ := ordered_middle.1 ord
          rcases List.mem_append.1 mem' with mem' | mem'
          · exact .inl (before _ (List.mem_map_of_mem mem'))
          · exact .inr (after _ (List.mem_map_of_mem ((List.mem_cons.1 mem').resolve_left ne)))
    · refine ⟨h, 0, ?_, .inl rfl⟩
      rw [heapAlloc, if_neg (by omega), if_pos (.inr (good.resolve_left nowrap))]

end Heap

/-- The sizes that a caller can ask for (C `size_t`). -/
def HeapOp.Typed : HeapOp → Prop
  | .alloc size => size < 2 ^ 64
  | _ => True

/-- A request is answered as the caller expects. -/
def HeapOp.Honest (h : Heap) : HeapOp → Prop
  | .alloc size => h.Honest size
  | _ => True

/-- A request is rounded up without wrapping, or nothing is free. -/
def HeapOp.Rounds (h : Heap) : HeapOp → Prop
  | .alloc size => size + 7 < 2 ^ 64 ∨ h.freeBlks = none
  | _ => True

/-- `P` holds of every call of a run, and of the heap that it is made on. -/
def HeapAlways (P : Heap → HeapOp → Prop) : Heap → List HeapOp → Prop
  | _, [] => True
  | h, op :: ops => P h op ∧ ∃ h', op.step h = some h' ∧ HeapAlways P h' ops

/-- A call that rounds a request up without wrapping keeps the invariant. -/
lemma Heap.Inv.step_of_rounds {h : Heap} {fl ul dl : List Nat} {op : HeapOp} (inv : h.Inv fl ul dl)
    (rounds : op.Rounds h) : ∃ h' fl' ul' dl', op.step h = some h' ∧ h'.Inv fl' ul' dl' := by
  by_cases nw : op.NoWrap
  · obtain ⟨h', fl', ul', dl', e, inv', -⟩ := inv.step nw
    exact ⟨h', fl', ul', dl', e, inv'⟩
  · cases op with
    | alloc size =>
      have full : h.freeBlks = none := rounds.resolve_left nw
      have pos : size ≠ 0 := fun zero => nw (by rw [HeapOp.NoWrap, zero]; decide)
      refine ⟨h, fl, ul, dl, ?_, inv⟩
      rw [HeapOp.step, heapAlloc, if_neg pos, if_pos (.inr full)]
      rfl
    | free => exact absurd trivial nw
    | setPolicy => exact absurd trivial nw
    | defrag => exact absurd trivial nw
    | defragClose => exact absurd trivial nw

/-- A call is honest exactly if it is not rounded up to nothing. -/
lemma Heap.Inv.honest_op {h : Heap} {fl ul dl : List Nat} {op : HeapOp} (inv : h.Inv fl ul dl) (typed : op.Typed) :
    op.Honest h ↔ op.Rounds h := by
  cases op with
  | alloc size => exact inv.honest_iff typed
  | free => exact Iff.rfl
  | setPolicy => exact Iff.rfl
  | defrag => exact Iff.rfl
  | defragClose => exact Iff.rfl

/-- So it is for a sequence of calls, by induction. -/
lemma Heap.Inv.always_iff {h : Heap} {fl ul dl : List Nat} {ops : List HeapOp} (inv : h.Inv fl ul dl)
    (typed : ∀ op ∈ ops, op.Typed) :
    HeapAlways (fun h op => op.Honest h) h ops ↔ HeapAlways (fun h op => op.Rounds h) h ops := by
  induction ops generalizing h fl ul dl with
  | nil => exact Iff.rfl
  | cons op ops ih =>
    have iff := inv.honest_op (typed op List.mem_cons_self)
    have rest := fun op hop => typed op (List.mem_cons_of_mem _ hop)
    constructor
    · rintro ⟨honest, h₁, step, later⟩
      obtain ⟨h', fl', ul', dl', step', inv'⟩ := inv.step_of_rounds (iff.1 honest)
      cases step.symm.trans step'
      exact ⟨iff.1 honest, h₁, step, (ih inv' rest).1 later⟩
    · rintro ⟨rounds, h₁, step, later⟩
      obtain ⟨h', fl', ul', dl', step', inv'⟩ := inv.step_of_rounds rounds
      cases step.symm.trans step'
      exact ⟨iff.2 rounds, h₁, step, (ih inv' rest).2 later⟩

/-- In every run from `heapCreate`, every request is answered with `NULL` or a used block that is as large as asked for
and overlaps no other, if and only if rounding up wraps for none that is made while there is something free. -/
theorem heapAlloc_honest_iff {newHeap node : Bool} {base n : Nat} {h₀ : Heap} {ops : List HeapOp}
    (mk : heapCreate newHeap base node n = some h₀) (hn : 1 ≤ n) (fit : base + n < 2 ^ 64)
    (typed : ∀ op ∈ ops, op.Typed) :
    HeapAlways (fun h op => op.Honest h) h₀ ops ↔ HeapAlways (fun h op => op.Rounds h) h₀ ops := by
  obtain ⟨hb, rfl⟩ := heapCreate_inv mk
  exact (Heap.inv_init hb hn fit).always_iff typed

/-- A run with a request of seven bytes less than `2 ^ 64`. -/
theorem heapAlloc_honest_iff_run :
    HeapAlways (fun h op => op.Honest h) (Heap.init 4096 64) [.alloc 5, .alloc (2 ^ 64 - 7)] ↔
      HeapAlways (fun h op => op.Rounds h) (Heap.init 4096 64) [.alloc 5, .alloc (2 ^ 64 - 7)] :=
  heapAlloc_honest_iff (show heapCreate true 4096 true 64 = some (Heap.init 4096 64) from rfl) (by decide) (by decide)
    (by simp [HeapOp.Typed])

/-- The heap has 64 bytes, and `SIZE_MAX` bytes of it are handed out. -/
theorem not_honest_of_max : ¬ (Heap.init 4096 64).Honest (2 ^ 64 - 1) := by
  rintro ⟨h', ptr, eq, honest⟩
  have inv := Heap.inv_init (show 0 < 4096 by decide) (show 0 < 64 by decide) (by decide)
  obtain ⟨h'', s, ul', mem, eq', used, zero⟩ := inv.alloc_wrap (show 2 ^ 64 ≤ 2 ^ 64 - 1 + 7 by decide) (by decide) nofun
  cases eq.symm.trans eq'
  rcases honest with null | ⟨ul'', i, used', mem', start, large, -⟩
  · exact inv.start_ne_zero (List.mem_append_left _ mem) null
  · cases used.unique used'
    have := zero i mem' start
    omega

end PDS.Lab1
