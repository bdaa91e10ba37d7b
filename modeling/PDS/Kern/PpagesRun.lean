import PDS.Kern.PpagesInv

/-!
# Runs of the page allocator

The boot sequence, and runs of `alloc_ppages` and `free_ppages` after it. A machine whose memory is
used up by the kernel image boots into a single free block of no pages, on which the allocator never
does anything (`Vm.Idle`); every other state satisfies `Vm.Inv`. `Vm.Ok` is the disjunction, and the
specifications of the two operations are restated for it.

`Ok.step` and `Ok.run` carry the invariant through a run together with the slots that the run leaks:
there are none exactly when no `free_ppages` call of the run coalesces (`QuietRun`).
-/

namespace PDS.Kern
open Word Links Extent

/-- The boot sequence of `kmain`: `ram_bootstrap(); vm_bootstrap();`. -/
def vmBoot (b : Boot) : Except Halt Vm := vmBootstrap (ramBootstrap b)

/-- A call of the page allocator. -/
inductive VmOp where
  | alloc (npages : Nat)
  | free (addr : Nat)
deriving DecidableEq, Repr

/-- The allocator after a call. -/
def VmOp.step (v : Vm) : VmOp → Except Halt Vm
  | .alloc n => (allocPpages v n).map Prod.fst
  | .free addr => freePpages v addr

/-- The allocator after a sequence of calls. -/
def vmRun (v : Vm) : List VmOp → Except Halt Vm
  | [] => .ok v
  | op :: ops => op.step v >>= fun v' => vmRun v' ops

namespace Vm

/-- A machine without free memory: one free block of no pages. -/
structure Idle (v : Vm) : Prop where
  pages : v.pages = 0
  freePages : v.freePages = 0
  free : Chain v.next v.freeBlks [0]
  used : v.usedBlks = none
  pool : v.Pool [0]
  slot : v.slots 0 = ⟨v.start, 0, none⟩

/-- The states of a booted allocator, with its free list, used list and leaked slots. -/
inductive Ok (v : Vm) : List Nat → List Nat → List Nat → Prop
  | inv {fl ul lk} : v.Inv fl ul lk → Ok v fl ul lk
  | idle : v.Idle → Ok v [0] [] []

variable {v v' : Vm} {fl ul lk : List Nat}

/-- The free list is a chain. -/
lemma Ok.free_chain (ok : v.Ok fl ul lk) : Chain v.next v.freeBlks fl := by
  cases ok with
  | inv inv => exact inv.arena.free
  | idle idle => exact idle.free

/-- The used list is a chain. -/
lemma Ok.used_chain (ok : v.Ok fl ul lk) : Chain v.next v.usedBlks ul := by
  cases ok with
  | inv inv => exact inv.arena.used
  | idle idle => exact idle.used

/-- The slots in use are those of the lists and the lost ones. -/
lemma Ok.pool (ok : v.Ok fl ul lk) : v.Pool (fl ++ ul ++ lk) := by
  cases ok with
  | inv inv => exact inv.pool
  | idle idle => exact idle.pool

/-- `Inv.alloc` for every booted state. -/
lemma Ok.alloc (ok : v.Ok fl ul lk) (n : Nat) :
    (allocPpages v n = .ok (v, 0) ∧ (n = 0 ∨ ∀ i ∈ fl, (v.slots i).pages < n)) ∨
    (allocPpages v n = .error (.panic "Not enough memory for VM system!\n") ∧ n ≠ 0 ∧
      (fl ++ ul ++ lk).length = maxNodes ∧ ∃ s ∈ fl, n ≤ (v.slots s).pages) ∨
    ∃ v' p s q q' a b u, fl = p ++ s :: q ∧ ul = a ++ b ∧ n ≠ 0 ∧ n ≤ (v.slots s).pages ∧
      allocPpages v n = .ok (v', (v.slots s).addr) ∧ v'.Inv (p ++ q') (a ++ u :: b) lk ∧
      v'.blk u = ⟨(v.slots s).addr, n * pageSize⟩ ∧ (∀ i ∈ a ++ b, v'.blk i = v.blk i) ∧
      v'.start = v.start ∧ v'.pages = v.pages := by
  cases ok with
  | inv inv => exact inv.alloc n
  | idle idle =>
    refine .inl ?_
    by_cases hz : n = 0
    · exact ⟨by simp [allocPpages, hz], .inl hz⟩
    · have lt : v.freePages < n := by rw [idle.freePages]; omega
      refine ⟨by simp [allocPpages, hz, lt], .inr ?_⟩
      intro i hi
      rw [List.mem_singleton.1 hi, idle.slot]
      exact Nat.pos_of_ne_zero hz

/-- `Inv.free` for every booted state. -/
lemma Ok.free (ok : v.Ok fl ul lk) (addr : Nat) :
    (freePpages v addr = .ok v ∧ ∀ i ∈ ul, (v.slots i).addr ≠ addr) ∨
    ∃ v' fl' a u b d, ul = a ++ u :: b ∧ (v.slots u).addr = addr ∧ freePpages v addr = .ok v' ∧
      v'.Inv fl' (a ++ b) (d ++ lk) ∧ (∀ i ∈ a ++ b, v'.blk i = v.blk i) ∧
      (fl'.length + d.length = fl.length + 1) ∧ (d = [] ↔ ¬ v.Touches fl u) ∧
      v'.start = v.start ∧ v'.pages = v.pages := by
  cases ok with
  | inv inv => exact inv.free addr
  | idle idle =>
    refine .inl ⟨?_, by simp⟩
    by_cases hz : addr = 0
    · simp [freePpages, hz]
    · simp [freePpages, hz, idle.used, walk, fuel, bind, Except.bind]

/-- `free_ppages(addr)` coalesces: a used block starts at `addr` and touches a free block. -/
def Coalesces (v : Vm) (addr : Nat) : Prop :=
  ∃ fl ul u, Chain v.next v.freeBlks fl ∧ Chain v.next v.usedBlks ul ∧ u ∈ ul ∧
    (v.slots u).addr = addr ∧ v.Touches fl u

end Vm

/-- A call that merges no blocks. -/
def VmOp.Quiet (v : Vm) : VmOp → Prop
  | .alloc _ => True
  | .free addr => ¬ v.Coalesces addr

/-- No call of the run merges blocks. -/
def QuietRun (v : Vm) : List VmOp → Prop
  | [] => True
  | op :: ops => op.Quiet v ∧ ∀ v', op.step v = .ok v' → QuietRun v' ops

namespace Vm

variable {v v' : Vm} {fl ul lk : List Nat}

/-- Two used nodes with the same address are the same node. -/
lemma Ok.used_inj (ok : v.Ok fl ul lk) {i j} (hi : i ∈ ul) (hj : j ∈ ul)
    (e : (v.slots i).addr = (v.slots j).addr) : i = j := by
  cases ok with
  | idle => cases hi
  | inv inv =>
    have ly := inv.arena.layout
    have lt := ly.used_ordered.starts_lt (fun b hb => ly.pos b (List.mem_append_right _ hb))
    rw [List.map_map, List.pairwise_map] at lt
    by_contra ne
    have h := List.Pairwise.forall_of_forall_of_flip
      (R := fun i j => i ≠ j → (v.slots i).addr ≠ (v.slots j).addr) (fun _ _ h => absurd rfl h)
      (lt.imp (fun h _ => h.ne)) (lt.imp (fun h _ => h.ne')) hi hj
    exact h ne e

/-- One call either exhausts the pool or returns and keeps the invariant; the slots it leaks are none
exactly when it merges no blocks. -/
lemma Ok.step (ok : v.Ok fl ul lk) (op : VmOp) :
    op.step v = .error (.panic "Not enough memory for VM system!\n") ∨
    ∃ v' fl' ul' d, op.step v = .ok v' ∧ v'.Ok fl' ul' (d ++ lk) ∧ (d = [] ↔ op.Quiet v) ∧
      v'.start = v.start ∧ v'.pages = v.pages := by
  cases op with
  | alloc n =>
    rcases ok.alloc n with ⟨e, -⟩ | ⟨e, -⟩ | ⟨v', p, s, q, q', a, b, u, -, -, -, -, e, inv, -, -, st, pg⟩
    · exact .inr ⟨v, fl, ul, [], by simp [VmOp.step, e, Except.map], ok, by simp [VmOp.Quiet], rfl, rfl⟩
    · exact .inl (by simp [VmOp.step, e, Except.map])
    · exact .inr ⟨v', _, _, [], by simp [VmOp.step, e, Except.map], .inv inv, by simp [VmOp.Quiet],
        st, pg⟩
  | free addr =>
    right
    rcases ok.free addr with ⟨e, none⟩ | ⟨v', fl', a, u, b, d, rfl, hu, e, inv, -, -, quiet, st, pg⟩
    · refine ⟨v, fl, ul, [], e, ok, ?_, rfl, rfl⟩
      refine ⟨fun _ => ?_, fun _ => rfl⟩
      rintro ⟨fl', ul', u, -, cu, mu, eu, -⟩
      rw [cu.unique ok.used_chain] at mu
      exact none u mu eu
    · refine ⟨v', fl', a ++ b, d, e, .inv inv, quiet.trans (not_congr ?_), st, pg⟩
      constructor
      · exact fun t => ⟨fl, a ++ u :: b, u, ok.free_chain, ok.used_chain, by simp, hu, t⟩
      · rintro ⟨fl', ul', w, cf, cu, mw, ew, t⟩
        rw [cf.unique ok.free_chain] at t
        rw [cu.unique ok.used_chain] at mw
        rwa [ok.used_inj mw (by simp) (ew.trans hu.symm)] at t

/-- A run either exhausts the pool or returns and keeps the invariant; the slots it leaks are none
exactly when it merges no blocks. -/
lemma Ok.run (ok : v.Ok fl ul lk) (ops : List VmOp) :
    vmRun v ops = .error (.panic "Not enough memory for VM system!\n") ∨
    ∃ v' fl' ul' d, vmRun v ops = .ok v' ∧ v'.Ok fl' ul' (d ++ lk) ∧ (d = [] ↔ QuietRun v ops) ∧
      v'.start = v.start ∧ v'.pages = v.pages := by
  induction ops generalizing v fl ul lk with
  | nil => exact .inr ⟨v, fl, ul, [], rfl, ok, by simp [QuietRun], rfl, rfl⟩
  | cons op ops ih =>
    cases ok.step op with
    | inl e => exact .inl (by simp [vmRun, e, bind, Except.bind])
    | inr h =>
      obtain ⟨v₁, fl₁, ul₁, d₁, e₁, ok₁, q₁, st₁, pg₁⟩ := h
      have er : vmRun v (op :: ops) = vmRun v₁ ops := by simp [vmRun, e₁, bind, Except.bind]
      have qr : QuietRun v (op :: ops) ↔ d₁ = [] ∧ QuietRun v₁ ops := by
        rw [q₁]
        simp [QuietRun, e₁]
      rw [er, qr]
      cases ih ok₁ with
      | inl e => exact .inl e
      | inr h =>
        obtain ⟨v', fl', ul', d, e, ok', q, st, pg⟩ := h
        refine .inr ⟨v', fl', ul', d ++ d₁, e, by simpa using ok', ?_, st.trans st₁, pg.trans pg₁⟩
        rw [List.append_eq_nil_iff, q, and_comm]

end Vm

/-- Physical memory before the VM system takes over. -/
structure Ram.Ok (r : Ram) : Prop where
  pos : 0 < r.firstpaddr
  le : r.firstpaddr ≤ r.lastpaddr
  top : r.lastpaddr ≤ 508 * 1024 * 1024
  aligned : pageSize ∣ r.firstpaddr

/-- The memory that is found at boot. -/
lemma ramBootstrap_ok (b : Boot) : (ramBootstrap b).Ok := by
  have above := b.above
  have loaded := b.loaded
  simp only [kseg0] at above loaded
  have first : (ramBootstrap b).firstpaddr = b.firstfree - kseg0 :=
    wsub_of_le above.le (by omega)
  have last : (ramBootstrap b).lastpaddr = min b.ramsize (508 * 1024 * 1024) := by
    simp only [ramBootstrap]
    split <;> omega
  refine ⟨?_, ?_, ?_, ?_⟩
  · rw [first]
    exact Nat.sub_pos_of_lt b.above
  · rw [first, last]
    exact b.loaded
  · rw [last]
    exact Nat.min_le_right _ _
  · rw [first]
    exact Nat.dvd_sub b.aligned (by decide)

/-- Stealing pages leaves a page-aligned, possibly empty, rest of memory. -/
lemma Ram.Ok.steal {r : Ram} (ok : r.Ok) :
    (ramStealmem r vmPages).1.Ok ∧ (ramStealmem r vmPages).2 ≤ 508 * 1024 * 1024 := by
  obtain ⟨pos, le, top, al⟩ := ok
  have e0 : wmul 32 vmPages pageSize = 65536 := by decide
  have e1 : wadd 32 r.firstpaddr 65536 = r.firstpaddr + 65536 := wadd_of_lt (by omega)
  simp only [ramStealmem, e0, e1]
  split
  · exact ⟨⟨pos, le, top, al⟩, Nat.zero_le _⟩
  · exact ⟨⟨by simp, by simp; omega, top, Dvd.dvd.add al (by decide)⟩, le.trans top⟩

/-- The first slot of a cleared pool is the first one taken. -/
lemma findNode_clear {v : Vm} (h : v.slots = fun _ => ⟨0, 0, none⟩) : v.findNode 0 = some 0 := by
  obtain ⟨n, e⟩ : ∃ n, maxNodes = n + 1 := ⟨5460, by decide⟩
  rw [Vm.findNode, e, List.range_succ_eq_map]
  simp [h]

/-- The state `vm_bootstrap` ends in. -/
def Vm.boot (start stop pages vmSpace : Nat) : Vm where
  start := start
  stop := stop
  pages := pages
  freePages := pages
  freeBlks := some 0
  usedBlks := none
  policy := .firstFit
  vmSpace := vmSpace
  slots := Function.update (fun _ => ⟨0, 0, none⟩) 0 ⟨start, pages, none⟩

/-- One slot is in use at boot. -/
lemma Vm.boot_pool {start stop pages vmSpace} (pos : start ≠ 0) (al : pageSize ∣ start)
    (low : start < kseg0) : (Vm.boot start stop pages vmSpace).Pool [0] := by
  have self : (Vm.boot start stop pages vmSpace).slots 0 = ⟨start, pages, none⟩ := by
    simp [Vm.boot]
  have other : ∀ i, i ≠ 0 → (Vm.boot start stop pages vmSpace).slots i = ⟨0, 0, none⟩ := by
    intro i hi
    simp [Vm.boot, hi]
  refine ⟨by simp, ?_, ?_⟩
  · intro i
    by_cases hi : i = 0
    · rw [hi, self]
      simp [pos]
      decide
    · rw [other i hi]
      simp [hi]
  · intro i hi
    rw [List.mem_singleton.1 hi, self]
    exact ⟨al, low⟩

/-- All pages are free at boot. -/
lemma Vm.boot_ok {start stop pages vmSpace} (pos : 0 < start) (al : pageSize ∣ start)
    (room : start + pages * pageSize < kseg0)
    (space : kseg0 ≤ vmSpace ∧ vmSpace + vmPages * pageSize ≤ 2 ^ 32) :
    (Vm.boot start stop pages vmSpace).Ok [0] [] [] := by
  have pool : (Vm.boot start stop pages vmSpace).Pool [0] := Vm.boot_pool pos.ne' al (by omega)
  have self : (Vm.boot start stop pages vmSpace).slots 0 = ⟨start, pages, none⟩ := by
    simp [Vm.boot]
  have blk : (Vm.boot start stop pages vmSpace).blk 0 = ⟨start, pages * pageSize⟩ := by
    rw [Vm.blk, self]
  have free : Chain (Vm.boot start stop pages vmSpace).next (some 0) [0] := by
    refine ⟨rfl, ?_⟩
    rw [Vm.next, self]
    rfl
  by_cases hz : pages = 0
  · subst hz
    exact .idle ⟨rfl, rfl, free, rfl, pool, self⟩
  · refine .inv ⟨⟨⟨free, rfl, by simp, ?_⟩, ?_⟩, pool, ?_, pos, room.le, space⟩
    · have lt : 0 < pages * pageSize := Nat.mul_pos (Nat.pos_of_ne_zero hz) (by decide)
      rw [arena_blk, List.map_singleton, blk]
      refine ⟨by simpa using lt, by simp [Vm.boot], List.pairwise_singleton _ _, List.Pairwise.nil,
        by simp, by simp [Vm.boot]⟩
    · rw [arena_blk, List.map_singleton]
      exact List.pairwise_singleton _ _
    · rw [List.map_singleton, blk]
      simp [Vm.boot]

/-- The kernel boots into a state of the allocator with one free block. -/
lemma vmBoot_ok (b : Boot) : ∃ v, vmBoot b = .ok v ∧ v.Ok [0] [] [] := by
  obtain ⟨⟨pos, le, top, al⟩, steal⟩ := (ramBootstrap_ok b).steal
  rw [vmBoot, vmBootstrap]
  generalize ramStealmem (ramBootstrap b) vmPages = st at *
  obtain ⟨⟨lo, hi⟩, paddr⟩ := st
  simp only [ramGetsize] at pos le top al steal ⊢
  have e1 : wsub 32 hi lo = hi - lo := wsub_of_le le (by omega)
  have e2 : paddrToKvaddr paddr = paddr + kseg0 := wadd_of_lt (by simp only [kseg0]; omega)
  have room : lo + (hi - lo) / pageSize * pageSize ≤ hi := by
    have := Nat.div_mul_le_self (hi - lo) pageSize
    omega
  have node : (Vm.clear lo hi paddr).findNode 0 = some 0 := findNode_clear rfl
  have e : (Vm.clear lo hi paddr).firstBlk
      = .ok (Vm.boot lo hi ((hi - lo) / pageSize) (paddr + kseg0)) := by
    simp only [Vm.firstBlk, allocNode, node]
    simp [Vm.clear, pos.ne', Vm.setSlot, Vm.boot, e1, e2]
  refine ⟨_, e, Vm.boot_ok pos al ?_ ?_⟩
  · simp only [kseg0]
    omega
  · simp only [kseg0, vmPages, pageSize]
    omega

namespace Vm

/-- What the two block lists look like from outside. -/
structure Lists (v : Vm) (fl ul : List Nat) : Prop where
  free : Chain v.next v.freeBlks fl
  used : Chain v.next v.usedBlks ul
  free_sorted : (fl.map (fun i => (v.slots i).addr)).Pairwise (· < ·)
  used_sorted : (ul.map (fun i => (v.slots i).addr)).Pairwise (· < ·)
  tiles : Tiles v.start (v.start + v.pages * pageSize) (fl.map v.blk ++ ul.map v.blk)
  not_adjacent : ∀ i ∈ fl, ∀ j ∈ fl, i ≠ j → (v.blk i).stop ≠ (v.blk j).start
  freePages : v.freePages = (fl.map (fun i => (v.slots i).pages)).sum

/-- The address `p` granted by a state `v` starts a used block of `n` pages in `v'` that was free
in `v`. -/
def Granted (v : Vm) (fl : List Nat) (n : Nat) (v' : Vm) (p : Nat) : Prop :=
  ∃ ul' u, Chain v'.next v'.usedBlks ul' ∧ u ∈ ul' ∧ (v'.slots u).addr = p ∧ (v'.slots u).pages = n ∧
    ∃ f ∈ fl, (v.blk f).start ≤ p ∧ p + n * pageSize ≤ (v.blk f).stop

variable {v v' : Vm} {fl ul lk : List Nat}

/-- The total of the blocks is that of their pages. -/
lemma total_blks (v : Vm) (l : List Nat) :
    total (l.map v.blk) = (l.map (fun i => (v.slots i).pages)).sum * pageSize := by
  induction l with
  | nil => simp
  | cons i l ih => simp [ih, Nat.add_mul]

/-- The lists of a state in order. -/
lemma Ok.lists (ok : v.Ok fl ul lk) : v.Lists fl ul := by
  cases ok with
  | inv inv =>
    have ly := inv.arena.layout
    have posf : ∀ b ∈ fl.map v.blk, 0 < b.size := fun b hb => ly.pos b (List.mem_append_left _ hb)
    have posu : ∀ b ∈ ul.map v.blk, 0 < b.size := fun b hb => ly.pos b (List.mem_append_right _ hb)
    refine ⟨inv.arena.free, inv.arena.used, ?_, ?_, ly.tiles, ?_, ?_⟩
    · have sorted := ly.free_ordered.starts_lt posf
      rwa [List.map_map] at sorted
    · have sorted := ly.used_ordered.starts_lt posu
      rwa [List.map_map] at sorted
    · intro i hi j hj _
      exact inv.arena.separated.stop_ne_start posf _ (List.mem_map_of_mem hi) _
        (List.mem_map_of_mem hj)
    · have eq := inv.freePages
      rw [total_blks] at eq
      exact Nat.eq_of_mul_eq_mul_right (by decide) eq
  | idle idle =>
    have blk : v.blk 0 = ⟨v.start, 0⟩ := by rw [Vm.blk, idle.slot, Nat.zero_mul]
    refine ⟨idle.free, idle.used, List.pairwise_singleton _ _, List.Pairwise.nil, ?_, ?_, ?_⟩
    · refine ⟨List.pairwise_singleton _ _, ?_⟩
      simp [blk, idle.pages, Block.Has]
    · intro i hi j hj ne
      rw [List.mem_singleton.1 hi, List.mem_singleton.1 hj] at ne
      exact absurd rfl ne
    · simp [idle.freePages, idle.slot]

/-- A call that returns an address grants a block. -/
lemma Ok.granted (ok : v.Ok fl ul lk) {n p} (e : allocPpages v n = .ok (v', p)) (hp : p ≠ 0) :
    v.Granted fl n v' p := by
  rcases ok.alloc n with ⟨e', -⟩ | ⟨e', -⟩ | ⟨w, a, s, q, q', c, d, u, rfl, -, -, hs, e', inv, bu, -⟩
  · rw [e'] at e
    cases e
    exact absurd rfl hp
  · rw [e'] at e
    cases e
  · rw [e'] at e
    cases e
    have addr : (v'.slots u).addr = (v.slots s).addr := congrArg Block.start bu
    have size : (v'.slots u).pages * pageSize = n * pageSize := congrArg Block.size bu
    refine ⟨_, u, inv.arena.used, by simp, addr, Nat.eq_of_mul_eq_mul_right (by decide) size, s, by simp,
      le_refl _, ?_⟩
    exact Nat.add_le_add_left (Nat.mul_le_mul_right _ hs) _

end Vm

/-- In every state that a run of the allocator reaches after boot, the free and the used list are
strictly sorted by address, their blocks tile the managed memory, no two free blocks are adjacent and
`free_pages` is their total; a non-zero address that `alloc_ppages` returns there starts a used block
of the size asked for, taken out of one free block. A run that does not return ends in the panic about
the exhausted pool. -/
theorem ppages_lists_tile (b : Boot) (ops : List VmOp) :
    ∃ v₀, vmBoot b = .ok v₀ ∧
      (vmRun v₀ ops = .error (.panic "Not enough memory for VM system!\n") ∨
        ∃ v fl ul, vmRun v₀ ops = .ok v ∧ v.Lists fl ul ∧ v.start = v₀.start ∧ v.pages = v₀.pages ∧
          ∀ n v' p, allocPpages v n = .ok (v', p) → p ≠ 0 → v.Granted fl n v' p) := by
  obtain ⟨v₀, boot, ok₀⟩ := vmBoot_ok b
  refine ⟨v₀, boot, ?_⟩
  cases ok₀.run ops with
  | inl e => exact .inl e
  | inr h =>
    obtain ⟨v, fl, ul, d, e, ok, -, st, pg⟩ := h
    exact .inr ⟨v, fl, ul, e, ok.lists, st, pg, fun n v' p => ok.granted⟩

namespace Vm

/-- The occupied slots of the pool. -/
def occupied (v : Vm) : List Nat := (List.range maxNodes).filter (fun i => (v.slots i).addr != 0)

/-- The occupied slots are the nodes of the two lists, and a pool that is not exhausted by them never
makes `alloc_ppages` panic. -/
def Conserved (v : Vm) : Prop :=
  ∃ fl ul, Chain v.next v.freeBlks fl ∧ Chain v.next v.usedBlks ul ∧
    v.occupied.length = fl.length + ul.length ∧
    (∀ i < maxNodes, (v.slots i).addr ≠ 0 ↔ i ∈ fl ++ ul) ∧
    (fl.length + ul.length < maxNodes → ∀ n, ∃ r, allocPpages v n = .ok r)

variable {v : Vm} {l fl ul lk : List Nat}

/-- As many slots are in use as there are nodes. -/
lemma Pool.occupied_length (pool : v.Pool l) : v.occupied.length = l.length := by
  refine (List.Perm.length_eq ?_)
  refine (List.perm_ext_iff_of_nodup (List.nodup_range.filter _) pool.nodup).2 ?_
  intro i
  rw [pool.mem, List.mem_filter, List.mem_range, bne_iff_ne]

/-- The pool is conserved exactly when no slot has leaked. -/
lemma Ok.conserved_iff (ok : v.Ok fl ul lk) : v.Conserved ↔ lk = [] := by
  have len := ok.pool.occupied_length
  simp only [List.length_append] at len
  constructor
  · rintro ⟨fl', ul', cf, cu, cnt, -⟩
    rw [cf.unique ok.free_chain, cu.unique ok.used_chain] at cnt
    exact List.eq_nil_of_length_eq_zero (by omega)
  · rintro rfl
    refine ⟨fl, ul, ok.free_chain, ok.used_chain, len, ?_, ?_⟩
    · intro i hi
      have mem := ok.pool.mem i
      rw [List.append_nil] at mem
      rw [mem]
      simp [hi]
    · intro lt n
      rcases ok.alloc n with ⟨e, -⟩ | ⟨-, -, full, -⟩ | ⟨v', p, s, q, q', a, b, u, -, -, -, -, e, -⟩
      · exact ⟨_, e⟩
      · simp only [List.length_append, List.length_nil] at full
        omega
      · exact ⟨_, e⟩

end Vm

/-- A run conserves the node pool exactly when none of its `free_ppages` calls merges blocks. -/
theorem pool_conserved_iff_quiet (b : Boot) (ops : List VmOp) {v₀ v : Vm} (boot : vmBoot b = .ok v₀)
    (run : vmRun v₀ ops = .ok v) : v.Conserved ↔ QuietRun v₀ ops := by
  obtain ⟨v₁, boot₁, ok₀⟩ := vmBoot_ok b
  rw [boot] at boot₁
  cases boot₁
  cases ok₀.run ops with
  | inl e =>
    rw [run] at e
    cases e
  | inr h =>
    obtain ⟨v₂, fl, ul, d, e, ok, quiet, -, -⟩ := h
    rw [run] at e
    cases e
    rw [ok.conserved_iff, ← quiet, List.append_nil]

/-- A machine with 256 kB of memory and a kernel of 128 kB. -/
def smallBoot : Boot where
  firstfree := 0x80020000
  ramsize := 0x40000
  aligned := by decide
  above := by decide
  loaded := by decide

/-- Of two pages that have been allocated one after the other, the first does not touch the free memory behind the
second; freeing it merges no blocks and conserves the pool. -/
theorem pool_conserved_apart : ∃ v₀ v, vmBoot smallBoot = .ok v₀ ∧
    vmRun v₀ [.alloc 1, .alloc 1, .free 0x30000] = .ok v ∧ v.Conserved := by
  obtain ⟨v₀, boot, -⟩ := vmBoot_ok smallBoot
  have two : ((vmBoot smallBoot >>= fun v => vmRun v [.alloc 1, .alloc 1]).toOption.map
      (fun v => ((v.freeBlks, v.next 0), (v.usedBlks, v.next 1, v.next 2), (v.slots 0).addr, v.blk 1,
        (v.slots 2).addr))) =
        some ((some 0, none), (some 1, some 2, none), 0x32000, ⟨0x30000, 0x1000⟩, 0x31000) := by
    decide +kernel
  have returns : (vmBoot smallBoot >>= fun v => vmRun v [.alloc 1, .alloc 1, .free 0x30000]).isOk = true := by
    decide +kernel
  rw [boot] at two returns
  change (vmRun v₀ [.alloc 1, .alloc 1]).toOption.map _ = _ at two
  change (vmRun v₀ [.alloc 1, .alloc 1, .free 0x30000]).isOk = true at returns
  cases run : vmRun v₀ [.alloc 1, .alloc 1, .free 0x30000] with
  | error e =>
    rw [run] at returns
    cases returns
  | ok v =>
    refine ⟨v₀, v, boot, run, (pool_conserved_iff_quiet smallBoot _ boot run).2 ?_⟩
    refine ⟨trivial, fun v₁ first => ⟨trivial, fun v₂ second => ⟨?_, fun _ _ => trivial⟩⟩⟩
    have reached : vmRun v₀ [.alloc 1, .alloc 1] = .ok v₂ := by simp [vmRun, first, second, bind, Except.bind]
    rw [reached] at two
    simp only [Except.toOption, Option.map_some, Option.some.injEq, Prod.mk.injEq] at two
    obtain ⟨⟨free, nextFree⟩, ⟨used, next₁, next₂⟩, addr₀, blk₁, addr₂⟩ := two
    rintro ⟨fl, ul, u, cf, cu, mem, addr, i, here, touch⟩
    rw [cf.unique (show Chain v₂.next v₂.freeBlks [0] from ⟨free, nextFree⟩), List.mem_singleton] at here
    rw [cu.unique (show Chain v₂.next v₂.usedBlks [1, 2] from ⟨used, next₁, next₂⟩), List.mem_pair] at mem
    subst here
    obtain rfl | rfl := mem
    · rw [blk₁] at touch
      simp only [Vm.blk, Block.stop, addr₀] at touch
      omega
    · rw [addr₂] at addr
      omega

/-- Allocating a page and freeing it again occupies a slot for good: `free_ppages` merges the page
with the rest of memory and calls `freeNode` with a node pointer. -/
theorem pool_leaks_slot : ∃ v₀ v, vmBoot smallBoot = .ok v₀ ∧
    vmRun v₀ [.alloc 1, .free 0x30000] = .ok v ∧ ¬ v.Conserved := by
  obtain ⟨v₀, boot, -⟩ := vmBoot_ok smallBoot
  have eval : ((vmBoot smallBoot >>= fun v => vmRun v [.alloc 1, .free 0x30000]).toOption.map
      (fun v => (v.freeBlks, v.next 1, v.usedBlks, v.occupied.length)))
        = some (some 1, none, none, 2) := by decide +kernel
  rw [boot] at eval
  change (vmRun v₀ [.alloc 1, .free 0x30000]).toOption.map _ = _ at eval
  cases run : vmRun v₀ [.alloc 1, .free 0x30000] with
  | error e =>
    rw [run] at eval
    cases eval
  | ok v =>
    rw [run] at eval
    simp only [Except.toOption, Option.map_some, Option.some.injEq, Prod.mk.injEq] at eval
    obtain ⟨free, next, used, cnt⟩ := eval
    refine ⟨v₀, v, boot, run, ?_⟩
    rintro ⟨fl, ul, cf, cu, len, -⟩
    rw [cf.unique (show Chain v.next v.freeBlks [1] from ⟨free, next⟩),
      cu.unique (show Chain v.next v.usedBlks [] from used), cnt] at len
    cases len

end PDS.Kern
