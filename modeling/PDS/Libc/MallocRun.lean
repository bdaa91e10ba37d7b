import PDS.Libc.MallocInv

/-!
# Runs of `malloc` and `free`

A program calls `malloc` and `free` and stores bytes into what it has been given (`MallocOp`). In every state that it
reaches the blocks tile the heap, and the next call does not end the process but for an `sbrk` that fails when the heap
is set up.
-/

namespace PDS.Libc
open Word Tags

variable {W : Type}

/-- A process with what it has allocated: the addresses, and the sizes asked for. -/
structure Client (W : Type) where
  proc : Process W
  live : List (Nat × Nat)

inductive MallocOp where
  | malloc (size : Nat)
  | free (x : Nat)
  /-- a byte is stored -/
  | store (a : Nat) (v : UInt8)

/-- What a program may do: sizes are not too large, it frees only what it has, and of the heap it writes only what it
has. -/
def MallocOp.Allowed (c : Client W) : MallocOp → Prop
  | malloc size => 1 ≤ size ∧ size ≤ 2 ^ 31 - 16
  | free x => x = 0 ∨ ∃ n, (x, n) ∈ c.live
  | store a _ => (a < c.proc.heapbase ∨ c.proc.heaptop ≤ a) ∨ ∃ e ∈ c.live, e.1 ≤ a ∧ a < e.1 + e.2

/-- What a program may do that also asks for zero bytes. -/
def MallocOp.Permitted (c : Client W) : MallocOp → Prop
  | malloc size => size ≤ 2 ^ 31 - 16
  | op => op.Allowed c

/-- A call that is allowed is permitted. -/
lemma MallocOp.Allowed.permitted {c : Client W} {op : MallocOp} (h : op.Allowed c) : op.Permitted c := by
  cases op with
  | malloc size => exact h.2
  | free x => exact h
  | store a v => exact h

def MallocOp.step (sb : Sbrk W) (c : Client W) : MallocOp → Except Abort (Client W)
  | malloc size => do
    let (s, x) ← Libc.malloc sb c.proc size
    .ok ⟨s, if x = 0 then c.live else (x, size) :: c.live⟩
  | free x => do
    let s ← Libc.free c.proc x
    .ok ⟨s, c.live.filter (·.1 ≠ x)⟩
  | store a v => .ok ⟨{ c.proc with mem := Function.update c.proc.mem a v }, c.live⟩

/-- The states that a program reaches. -/
inductive MallocReach (sb : Sbrk W) (mem : Mem) (w : W) : Client W → Prop where
  | start : MallocReach sb mem w ⟨⟨mem, 0, 0, w⟩, []⟩
  | step {c c' : Client W} {op : MallocOp} : MallocReach sb mem w c → op.Allowed c → op.step sb c = .ok c' →
    MallocReach sb mem w c'

/-- The heap is set up. -/
def Process.Ready (sb : Sbrk W) (s : Process W) : Prop := 0 < s.heapbase ∧ sb.brk s.world = s.heaptop

variable {d : Nat} {sb : Sbrk W} {s : Process W}

/-- The check for corruption passes once the heap is set up. -/
lemma ready_not_corrupt {l : List Piece} (ready : s.Ready sb) (bl : Row d s.mem s.heapbase s.heaptop l) :
    ¬ s.corrupt := by
  have pos := ready.1
  have stop := bl.stop
  rw [Process.corrupt]
  omega

/-- A heap without blocks. -/
lemma row_nil {m : Mem} {a : Nat} (dvd : mblocksize ∣ a) (lt : a < 2 ^ 32) : Row d m a a [] :=
  ⟨dvd, rfl, lt, nofun, trivial⟩

/-- The base is aligned, or `sbrk` fails. -/
lemma mallocAlign_spec (pos : 0 < s.heapbase) (top : s.heaptop = s.heapbase) (brk : sb.brk s.world = s.heapbase) :
    mallocAlign sb s = .error (.err "malloc: sbrk failed aligning heap base") ∨
    ∃ s', mallocAlign sb s = .ok s' ∧ s'.Ready sb ∧ s'.mem = s.mem ∧ Row d s'.mem s'.heapbase s'.heaptop [] := by
  have eight : mblocksize = 8 := rfl
  have lt := sb.brk_lt s.world
  rw [mallocAlign]
  by_cases odd : s.heapbase % mblocksize = 0
  · rw [if_neg (not_not.2 odd)]
    refine .inr ⟨s, rfl, ⟨pos, brk.trans top.symm⟩, rfl, ?_⟩
    rw [top]
    exact row_nil (Nat.dvd_of_mod_eq_zero odd) (brk ▸ lt)
  · rw [if_pos odd]
    extract_lets adjust
    have small : adjust = mblocksize - s.heapbase % mblocksize := rfl
    have moves := sb.moves s.world adjust (by omega)
    have lt' := sb.brk_lt (sb.call s.world adjust).1
    generalize sb.call s.world adjust = r at moves lt' ⊢
    obtain ⟨w, x⟩ := r
    dsimp only at moves lt' ⊢
    by_cases failed : x = minusOne
    · exact .inl (if_pos failed)
    · obtain ⟨old, moved⟩ := moves.resolve_right fun h => failed h.1
      have sum : wadd 32 s.heapbase adjust = s.heapbase + adjust := wadd_of_lt (by omega)
      rw [if_neg failed, if_neg (not_not.2 (old.trans brk)), sum]
      refine .inr ⟨_, rfl, ⟨by dsimp only; omega, by dsimp only; omega⟩, rfl, ?_⟩
      have aligned : (s.heapbase + adjust) % mblocksize = 0 := by
        rw [eight] at small odd ⊢
        omega
      have room : s.heapbase + adjust < 2 ^ 32 := by omega
      exact row_nil (Nat.dvd_of_mod_eq_zero aligned) room

/-- The base of the heap is set and aligned, or `sbrk` fails. -/
lemma mallocInit_spec (base : s.heapbase = 0) (top : s.heaptop = 0) :
    mallocInit sb s = .error (.err "malloc: initial sbrk failed") ∨
    mallocInit sb s = .error (.err "malloc: sbrk failed aligning heap base") ∨
    ∃ s', mallocInit sb s = .ok s' ∧ s'.Ready sb ∧ s'.mem = s.mem ∧ Row d s'.mem s'.heapbase s'.heaptop [] := by
  rw [mallocInit, if_neg (by omega)]
  have moves := sb.moves s.world 0 (by decide)
  have pos := sb.brk_pos s.world
  generalize sb.call s.world 0 = r at moves ⊢
  obtain ⟨w, x⟩ := r
  dsimp only at moves ⊢
  by_cases failed : x = minusOne
  · exact .inl (if_pos failed)
  · obtain ⟨rfl, moved⟩ := moves.resolve_right fun h => failed h.1
    rw [if_neg failed, if_neg pos.ne']
    exact .inr (mallocAlign_spec pos rfl moved)

/-- A size that does not wrap around is rounded up to whole blocks. -/
lemma roundUp_spec (size : Nat) (le : size ≤ 2 ^ 32 - 8) :
    mblocksize ∣ roundUp size ∧ size ≤ roundUp size ∧ roundUp size < size + mblocksize := by
  have mask : 2 ^ 32 - 1 - (mblocksize - 1) = 2 ^ 32 - 2 ^ 3 := by decide
  have eight : mblocksize = 8 := rfl
  have up : wsub 32 (wadd 32 size mblocksize) 1 = size + 7 := by
    rw [wsub, wadd, eight]
    omega
  rw [roundUp, up, mask, and_highMask (by decide) (by omega), eight]
  omega

/-- A size that is not zero stays so. -/
lemma roundUp_pos {size : Nat} (pos : 1 ≤ size) (le : size ≤ 2 ^ 31 - 16) : mblocksize ≤ roundUp size := by
  obtain ⟨dvd, up, -⟩ := roundUp_spec size (by omega)
  exact Nat.le_of_dvd (by omega) dvd

/-- A promised size stays promised. -/
lemma roundUp_le {size : Nat} (le : size ≤ 2 ^ 31 - 16) : roundUp size ≤ 2 ^ 31 - 16 := by
  obtain ⟨dvd, -, lt⟩ := roundUp_spec size (by omega)
  rw [mblocksize] at dvd lt
  omega

/-- The row of blocks `l'` is `l` with a new block of the size `k` at `y`. -/
structure Allocated (d : Nat) (s s' : Process W) (l l' : List Piece) (y k : Nat) : Prop where
  blocks : Row d s'.mem s'.heapbase s'.heaptop l'
  coalesced : Coalesced l'
  used : ∀ z b, b.used = true → (At s.heapbase l' z b ↔ At s.heapbase l z b ∨ (z = y ∧ b = ⟨k, true⟩))
  new : ∀ b, b.used = true → ¬ At s.heapbase l y b
  kept : Kept s.mem s'.mem s.heapbase l

/-- A free block is taken. -/
lemma take_spec {p q : List Piece} {n size : Nat} (bl : Row d s.mem s.heapbase s.heaptop (p ++ ⟨n, false⟩ :: q))
    (co : Coalesced (p ++ ⟨n, false⟩ :: q)) (dvd : mblocksize ∣ size) (least : d ≤ mblocksize) (enough : d ≤ size)
    (fits : size + mblocksize ≤ n) :
    ∃ m l' k, mallocSplit s.mem s.heaptop (s.heapbase + total p) size = .ok m ∧ size + mblocksize ≤ k ∧
      Allocated d s
        { s with mem := m.setHeader (s.heapbase + total p) { m.header (s.heapbase + total p) with inuse := 1 } }
        (p ++ ⟨n, false⟩ :: q) l' (s.heapbase + total p) k := by
  obtain ⟨m, k, r, e, le, sum, cut, bl', out⟩ := bl.split dvd least enough fits
  have eight : mblocksize = 8 := rfl
  have free : ∀ b ∈ (⟨k, false⟩ :: r : List Piece), b.used = false := by
    obtain rfl | ⟨n', rfl⟩ := cut <;> simp
  have same : SameUsed s.heapbase (p ++ ⟨n, false⟩ :: q) (p ++ ⟨k, false⟩ :: (r ++ q)) :=
    sameUsed_middle [⟨n, false⟩] (⟨k, false⟩ :: r) (by simpa using sum) (by simp) free
  obtain ⟨cop, coq, -, head⟩ := coalesced_free.1 co
  have small : mblocksize ≤ k := by omega
  have within : k ≤ n := by omega
  refine ⟨m, p ++ ⟨k, true⟩ :: (r ++ q), k, e, le, ?_, ?_, ?_, ?_, ?_⟩
  · exact bl'.mark (bl'.tag.setInuse true rfl) fun x h => setHeader_of_ne (by omega)
  · refine coalesced_used.2 ⟨cop, ?_⟩
    obtain rfl | ⟨n', rfl⟩ := cut
    · exact coq
    · exact (coalesced_free (p := [])).2 ⟨.nil, coq, nofun, head⟩
  · intro z b used
    rw [at_mark used, same z b used]
  · intro b used h
    have free : At s.heapbase (p ++ ⟨n, false⟩ :: q) (s.heapbase + total p) ⟨n, false⟩ :=
      at_append.2 (.inr at_middle)
    obtain ⟨-, rfl⟩ | apart := free.apart h
    · cases used
    · have size := bl.place.2.2
      have size' := (bl.sized b h.mem).2
      dsimp only at apart size
      omega
  · refine Kept.of_outside fun x h => ?_
    exact (setHeader_of_ne (by omega)).trans (out x h)

/-- The heap grows by a block. -/
lemma grow_spec {l : List Piece} {w : W} {size right : Nat} (bl : Row d s.mem s.heapbase s.heaptop l)
    (co : Coalesced l) (dvd : mblocksize ∣ size) (enough : d ≤ size)
    (lt : s.heaptop + (size + mblocksize) < 2 ^ 32) (r : right * 2 ^ mblockshift = last 0 l) :
    Allocated d s ⟨s.mem.setHeader s.heaptop ⟨.ofNat 29 right, 0, mmagic, mMkfield (size + mblocksize), 1, mmagic⟩,
      s.heapbase, s.heaptop + (size + mblocksize), w⟩ l (l ++ [⟨size + mblocksize, true⟩]) s.heaptop
      (size + mblocksize) := by
  have eight : mblocksize = 8 := rfl
  have stop := bl.stop
  have whole : mblocksize ∣ size + mblocksize ∧ mblocksize + d ≤ size + mblocksize :=
    ⟨Nat.dvd_add dvd (dvd_refl _), by omega⟩
  have out : ∀ x, x < s.heaptop → s.mem.setHeader s.heaptop
      ⟨.ofNat 29 right, 0, mmagic, mMkfield (size + mblocksize), 1, mmagic⟩ x = s.mem x :=
    fun x h => setHeader_of_ne (.inl h)
  have field := mkfield_toNat (size + mblocksize) whole.1 (by omega)
  have prev : (BitVec.ofNat 29 right).toNat * 2 ^ mblockshift = last 0 l := by
    have le := last_le_total l
    rw [mblockshift] at r ⊢
    rw [BitVec.toNat_ofNat]
    omega
  refine ⟨⟨bl.dvd, ?_, lt, ?_, ?_⟩, coalesced_used.2 ⟨co, .nil⟩, ?_, ?_, ?_⟩
  · dsimp only
    rw [total_append, total_cons, total_nil]
    dsimp only
    omega
  · exact bl.sized.append (Sized.cons whole fun b hb => by cases hb)
  · refine tagged_append.2 ⟨tags_same bl.sized bl.tags fun x _ h => out x (by dsimp only at h; omega), ?_, trivial⟩
    dsimp only
    rw [stop]
    exact Tag.new true prev field rfl
  · intro z b used
    rw [at_append, At, At, or_false, stop]
  · intro b used h
    have within := h.within.2
    have size := (bl.sized b h.mem).2
    omega
  · intro y b h _ x _ lt
    have within := h.within.2
    exact out x (by omega)

/-- A free block of the row is big enough. -/
def Fits (l : List Piece) (size : Nat) : Prop := ∃ b ∈ l, b.used = false ∧ size + mblocksize ≤ b.size

/-- `malloc` with a free block that is big enough. -/
lemma mallocBlock_take {l : List Piece} {size : Nat} (ready : s.Ready sb) (bl : Row d s.mem s.heapbase s.heaptop l)
    (co : Coalesced l) (dvd : mblocksize ∣ size) (least : d ≤ mblocksize) (enough : d ≤ size) (fits : Fits l size) :
    ∃ s' l' y k, mallocBlock sb s size = .ok (s', y + mblocksize) ∧ s'.Ready sb ∧ s'.heapbase = s.heapbase ∧
      size + mblocksize ≤ k ∧ Allocated d s s' l l' y k := by
  have eight : mblocksize = 8 := rfl
  have lt := bl.lt
  have stop := bl.stop
  have fuel : total l < s.heaptop - s.heapbase + 1 := by omega
  have found := bl.findFit_spec (p := []) (q := l) size (show 0 * 2 ^ mblockshift = last 0 [] from rfl) fuel
  simp only [total_nil, Nat.add_zero] at found
  obtain ⟨p, n, q, r', rfl, room, e⟩ | ⟨none, -⟩ := found
  · obtain ⟨m, l', k, e', small, alloc⟩ := take_spec bl co dvd least enough room
    have place := bl.place
    dsimp only at place
    have data : mData (s.heapbase + total p) = s.heapbase + total p + mblocksize := wadd_of_lt (by omega)
    rw [mallocBlock, e]
    dsimp only [bind, Except.bind]
    rw [e', data]
    exact ⟨_, l', s.heapbase + total p, k, rfl, ready, rfl, small, alloc⟩
  · obtain ⟨b, mem, free, le⟩ := fits
    exact absurd le (not_le.2 (none b mem free))

/-- `malloc` without such a block asks for more memory. -/
lemma mallocBlock_none (sb : Sbrk W) {l : List Piece} {size : Nat} (bl : Row d s.mem s.heapbase s.heaptop l)
    (none : ¬ Fits l size) : ∃ right, right * 2 ^ mblockshift = last 0 l ∧ mallocBlock sb s size = (do
      let (s, mh) ← mallocSbrk sb s (wadd 32 size mblocksize)
      if mh = 0 then .ok (s, 0)
      else
        let h : Mheader := ⟨.ofNat 29 right, 0, mmagic, mMkfield (wadd 32 size mblocksize), 1, mmagic⟩
        .ok ({ s with mem := s.mem.setHeader mh h }, mData mh)) := by
  have stop := bl.stop
  have fuel : total l < s.heaptop - s.heapbase + 1 := by omega
  have found := bl.findFit_spec (p := []) (q := l) size (show 0 * 2 ^ mblockshift = last 0 [] from rfl) fuel
  simp only [total_nil, Nat.add_zero] at found
  obtain ⟨p, n, q, r', rfl, room, -⟩ | ⟨-, right, last, e⟩ := found
  · exact absurd ⟨⟨n, false⟩, by simp, rfl, room⟩ none
  · refine ⟨right, last, ?_⟩
    rw [mallocBlock, e]
    rfl

/-- The heap grows, or `sbrk` fails and nothing changes. -/
lemma mallocBlock_grow {l : List Piece} {size : Nat} (ready : s.Ready sb) (bl : Row d s.mem s.heapbase s.heaptop l)
    (co : Coalesced l) (dvd : mblocksize ∣ size) (enough : d ≤ size) (none : ¬ Fits l size)
    (small : size + mblocksize < 2 ^ 31) :
    ∃ s' x, mallocBlock sb s size = .ok (s', x) ∧ s'.Ready sb ∧ s'.heapbase = s.heapbase ∧
      ((x = 0 ∧ s'.mem = s.mem ∧ s'.heaptop = s.heaptop) ∨
        ∃ l' y k, x = y + mblocksize ∧ size + mblocksize ≤ k ∧ Allocated d s s' l l' y k) := by
  have eight : mblocksize = 8 := rfl
  obtain ⟨right, last, e⟩ := mallocBlock_none sb bl none
  have sum : wadd 32 size mblocksize = size + mblocksize := wadd_of_lt (by omega)
  rw [e, mallocSbrk, sum]
  have moves := sb.moves s.world (size + mblocksize) small
  have lt' := sb.brk_lt (sb.call s.world (size + mblocksize)).1
  generalize sb.call s.world (size + mblocksize) = r at moves lt' ⊢
  obtain ⟨w, x⟩ := r
  obtain ⟨pos_base, brk⟩ := ready
  dsimp only [bind, Except.bind] at moves lt' ⊢
  by_cases failed : x = minusOne
  · rw [if_pos failed]
    dsimp only
    rw [if_pos rfl]
    have high : minusOne = 2 ^ 32 - 1 := rfl
    have same : sb.brk w = sb.brk s.world := by omega
    exact ⟨_, 0, rfl, ⟨pos_base, same.trans brk⟩, rfl, .inl ⟨rfl, rfl, rfl⟩⟩
  · obtain ⟨rfl, moved⟩ := moves.resolve_right fun h => failed h.1
    have stop := bl.stop
    rw [if_neg failed, if_neg (not_not.2 brk)]
    dsimp only
    rw [if_neg (by omega)]
    have room : s.heaptop + (size + mblocksize) < 2 ^ 32 := by omega
    rw [brk, wadd_of_lt room]
    have data : mData s.heaptop = s.heaptop + mblocksize := wadd_of_lt (by omega)
    have alloc := grow_spec (w := w) bl co dvd enough room last
    refine ⟨_, _, rfl, ⟨pos_base, ?_⟩, rfl, .inr ⟨_, _, _, data, le_rfl, alloc⟩⟩
    exact moved.trans (by rw [brk])

/-- `malloc` in a heap that is set up: it fails and changes nothing, or there is a new block. -/
lemma mallocBlock_spec {l : List Piece} {size : Nat} (ready : s.Ready sb)
    (bl : Row d s.mem s.heapbase s.heaptop l) (co : Coalesced l) (dvd : mblocksize ∣ size) (least : d ≤ mblocksize)
    (enough : d ≤ size) (room : Fits l size ∨ size + mblocksize < 2 ^ 31) :
    ∃ s' x, mallocBlock sb s size = .ok (s', x) ∧ s'.Ready sb ∧ s'.heapbase = s.heapbase ∧
      ((x = 0 ∧ s'.mem = s.mem ∧ s'.heaptop = s.heaptop) ∨
        ∃ l' y k, x = y + mblocksize ∧ size + mblocksize ≤ k ∧ Allocated d s s' l l' y k) := by
  by_cases fits : Fits l size
  · obtain ⟨s', l', y, k, e, ready', base, small, alloc⟩ := mallocBlock_take ready bl co dvd least enough fits
    exact ⟨s', _, e, ready', base, .inr ⟨l', y, k, rfl, small, alloc⟩⟩
  · exact mallocBlock_grow ready bl co dvd enough fits (room.resolve_left fits)

/-- What has been allocated lies in blocks that are in use. -/
def Owned (base : Nat) (l : List Piece) (live : List (Nat × Nat)) : Prop :=
  ∀ e ∈ live, ∃ y n, e.1 = y + mblocksize ∧ At base l y ⟨n, true⟩ ∧ e.2 + mblocksize ≤ n

/-- The bytes that have been allocated are the same. -/
def SameData (m m' : Mem) (live : List (Nat × Nat)) : Prop :=
  ∀ e ∈ live, ∀ x, e.1 ≤ x → x < e.1 + e.2 → m' x = m x

/-- The heap of a program is the row of blocks `l`. -/
structure Held (d : Nat) (sb : Sbrk W) (c : Client W) (l : List Piece) : Prop where
  blocks : Row d c.proc.mem c.proc.heapbase c.proc.heaptop l
  coalesced : Coalesced l
  owned : Owned c.proc.heapbase l c.live
  distinct : (c.live.map Prod.fst).Nodup
  state : (c.proc.heapbase = 0 ∧ c.proc.heaptop = 0) ∨ c.proc.Ready sb

variable {c c' : Client W} {l : List Piece} {live live' : List (Nat × Nat)}

/-- Some of the live blocks are owned if all are. -/
lemma Owned.sub {base : Nat} (o : Owned base l live) (sub : live' ⊆ live) : Owned base l live' :=
  fun e he => o e (sub he)

/-- The data of live blocks are kept with the used blocks. -/
lemma Owned.sameData {base : Nat} {m m' : Mem} (o : Owned base l live) (k : Kept m m' base l) : SameData m m' live := by
  intro e he x le lt
  obtain ⟨y, n, eq, at_, fits⟩ := o e he
  exact k y _ at_ rfl x (by omega) (by dsimp only; omega)

/-- Allocations at different addresses do not overlap. -/
lemma Owned.disjoint {base : Nat} (o : Owned base l live) (distinct : (live.map Prod.fst).Nodup) :
    live.Pairwise fun e e' => e.1 + e.2 ≤ e'.1 ∨ e'.1 + e'.2 ≤ e.1 := by
  refine (List.Pairwise.and_mem.1 (List.pairwise_map.1 distinct)).imp ?_
  rintro e e' ⟨he, he', ne⟩
  obtain ⟨y, n, eq, at_, fits⟩ := o e he
  obtain ⟨y', n', eq', at', fits'⟩ := o e' he'
  have apart := at_.apart at'
  dsimp only at apart
  omega

/-- What is live stays so when more is allocated. -/
lemma malloc_live {size : Nat} (e : MallocOp.step sb c (.malloc size) = .ok c') {a : Nat × Nat} (h : a ∈ c.live) :
    a ∈ c'.live := by
  rw [MallocOp.step] at e
  cases r : Libc.malloc sb c.proc size with
  | error f =>
    rw [r] at e
    cases e
  | ok r' =>
    rw [r] at e
    cases e
    dsimp only
    split
    · exact h
    · exact List.mem_cons_of_mem _ h

/-- What is freed is live no longer. -/
lemma free_live {x : Nat} (e : MallocOp.step sb c (.free x) = .ok c') : c'.live = c.live.filter (·.1 ≠ x) := by
  rw [MallocOp.step] at e
  cases r : Libc.free c.proc x with
  | error f =>
    rw [r] at e
    cases e
  | ok s =>
    rw [r] at e
    cases e
    rfl

/-- `free` does not return at the top of the heap. -/
lemma free_inside {x : Nat} (e : MallocOp.step sb c (.free x) = .ok c') : x = 0 ∨ x ≠ c.proc.heaptop := by
  refine or_iff_not_imp_left.2 fun null top => ?_
  rw [MallocOp.step, Libc.free, if_neg null] at e
  by_cases corrupt : c.proc.corrupt
  · rw [if_pos corrupt] at e
    cases e
  · rw [if_neg corrupt, if_pos (.inr top.ge)] at e
    cases e

namespace Held

/-- Where there is a block the heap is set up. -/
lemma ready_of_at {y : Nat} {b : Piece} (h : Held d sb c l) (at_ : At c.proc.heapbase l y b) : c.proc.Ready sb := by
  refine h.state.resolve_left fun zero => ?_
  have stop := h.blocks.stop
  have within := at_.within
  have size := (h.blocks.sized b at_.mem).2
  have eight : mblocksize = 8 := rfl
  omega

/-- The first call sets the heap up. -/
lemma init (h : Held d sb c l) (zero : c.proc.heapbase = 0) :
    mallocInit sb c.proc = .error (.err "malloc: initial sbrk failed") ∨
    mallocInit sb c.proc = .error (.err "malloc: sbrk failed aligning heap base") ∨
    ∃ s, mallocInit sb c.proc = .ok s ∧ s.mem = c.proc.mem ∧ s.Ready sb ∧ Held d sb ⟨s, c.live⟩ [] := by
  have top : c.proc.heaptop = 0 := by
    obtain state | ready := h.state
    · exact state.2
    · exact absurd zero ready.1.ne'
  refine (mallocInit_spec (d := d) zero top).imp_right fun r => r.imp_right ?_
  rintro ⟨s, e, ready, mem, bl⟩
  have none : c.live = [] := by
    refine List.eq_nil_iff_forall_not_mem.2 fun e he => ?_
    obtain ⟨y, n, -, at_, -⟩ := h.owned e he
    exact absurd zero (h.ready_of_at at_).1.ne'
  refine ⟨s, e, mem, ready, bl, .nil, ?_, h.distinct, .inr ready⟩
  intro e he
  rw [none] at he
  cases he

/-- A new block is live. -/
lemma allocated {s' : Process W} {l' : List Piece} {y k size : Nat} (h : Held d sb c l)
    (alloc : Allocated d c.proc s' l l' y k) (base : s'.heapbase = c.proc.heapbase) (ready : s'.Ready sb)
    (fits : size + mblocksize ≤ k) : Held d sb ⟨s', (y + mblocksize, size) :: c.live⟩ l' where
  blocks := alloc.blocks
  coalesced := alloc.coalesced
  owned := by
    dsimp only
    rw [base]
    intro e he
    cases he with
    | head => exact ⟨y, k, rfl, (alloc.used y _ rfl).2 (.inr ⟨rfl, rfl⟩), fits⟩
    | tail _ he =>
      obtain ⟨y', n, eq, at_, fits'⟩ := h.owned e he
      exact ⟨y', n, eq, (alloc.used y' _ rfl).2 (.inl at_), fits'⟩
  distinct := by
    refine List.nodup_cons.2 ⟨fun mem => ?_, h.distinct⟩
    obtain ⟨e, he, eq⟩ := List.mem_map.1 mem
    obtain ⟨y', n, eq', at_, -⟩ := h.owned e he
    obtain rfl : y' = y := by
      dsimp only at eq
      omega
    exact alloc.new _ rfl at_
  state := .inr ready

/-- `malloc` in a heap that is set up. -/
lemma mallocBlock (h : Held d sb c l) (ready : c.proc.Ready sb) {size : Nat} (least : d ≤ mblocksize)
    (enough : d ≤ roundUp size) (le : size ≤ 2 ^ 32 - 8) (room : Fits l (roundUp size) ∨ size ≤ 2 ^ 31 - 16) :
    ∃ s x l', Libc.mallocBlock sb c.proc (roundUp size) = .ok (s, x) ∧
      Held d sb ⟨s, if x = 0 then c.live else (x, size) :: c.live⟩ l' ∧ SameData c.proc.mem s.mem c.live ∧
      (x = 0 → s.mem = c.proc.mem ∧ s.heapbase = c.proc.heapbase ∧ s.heaptop = c.proc.heaptop) := by
  obtain ⟨dvd, up, -⟩ := roundUp_spec _ le
  have room : Fits l (roundUp size) ∨ roundUp size + mblocksize < 2 ^ 31 := by
    refine room.imp_right fun small => ?_
    have := roundUp_le small
    rw [mblocksize]
    omega
  obtain ⟨s, x, e, ready', base, failed | ⟨l', y, k, rfl, fits, alloc⟩⟩ :=
    mallocBlock_spec ready h.blocks h.coalesced dvd least enough room
  · obtain ⟨rfl, mem, top⟩ := failed
    refine ⟨s, 0, l, e, ⟨?_, h.coalesced, ?_, h.distinct, .inr ready'⟩, ?_, fun _ => ⟨mem, base, top⟩⟩
    · dsimp only
      rw [mem, base, top]
      exact h.blocks
    · dsimp only
      rw [base]
      exact h.owned
    · intro e _ x _ _
      rw [mem]
  · have some : y + mblocksize ≠ 0 := (Nat.add_pos_right y (by decide)).ne'
    refine ⟨s, y + mblocksize, l', e, ?_, h.owned.sameData alloc.kept, fun null => absurd null some⟩
    rw [if_neg some]
    exact h.allocated alloc base ready' (by omega)

/-- `malloc`: it fails to set the heap up, or the invariant holds again. -/
lemma malloc (h : Held d sb c l) {size : Nat} (least : d ≤ mblocksize) (enough : d ≤ roundUp size)
    (le : size ≤ 2 ^ 31 - 16) :
    MallocOp.step sb c (.malloc size) = .error (.err "malloc: initial sbrk failed") ∨
    MallocOp.step sb c (.malloc size) = .error (.err "malloc: sbrk failed aligning heap base") ∨
    ∃ c' l', MallocOp.step sb c (.malloc size) = .ok c' ∧ Held d sb c' l' ∧ SameData c.proc.mem c'.proc.mem c.live := by
  rw [MallocOp.step, Libc.malloc]
  by_cases zero : c.proc.heapbase = 0
  · rw [if_pos zero]
    obtain e | e | ⟨s, e, mem, ready, h'⟩ := h.init zero
    · rw [e]
      exact .inl rfl
    · rw [e]
      exact .inr (.inl rfl)
    · obtain ⟨s', x, l', e', h'', same, -⟩ := h'.mallocBlock ready least enough (by omega) (.inr le)
      dsimp only at e' same
      rw [e]
      dsimp only [bind, Except.bind]
      rw [if_neg (ready_not_corrupt ready h'.blocks), e']
      rw [mem] at same
      exact .inr (.inr ⟨_, l', rfl, h'', same⟩)
  · have ready := h.state.resolve_left fun state => zero state.1
    obtain ⟨s', x, l', e', h'', same, -⟩ := h.mallocBlock ready least enough (by omega) (.inr le)
    rw [if_neg zero]
    dsimp only [bind, Except.bind]
    rw [if_neg (ready_not_corrupt ready h.blocks), e']
    exact .inr (.inr ⟨_, l', rfl, h'', same⟩)

/-- What is left when `x` has been freed. -/
lemma remove (h : Held d sb c l) (x : Nat) : ((c.live.filter (·.1 ≠ x)).map Prod.fst).Nodup :=
  h.distinct.sublist (List.filter_sublist.map _)

/-- `free` of what is live, below the top of the heap: its block is free, and so are those that were. -/
lemma free_spec (h : Held d sb c l) {x size : Nat} (live : (x, size) ∈ c.live) (inside : x ≠ c.proc.heaptop) :
    ∃ m l' y n, x = y + mblocksize ∧ At c.proc.heapbase l y ⟨n, true⟩ ∧
      Libc.free c.proc x = .ok { c.proc with mem := m } ∧
      Held d sb ⟨{ c.proc with mem := m }, c.live.filter (·.1 ≠ x)⟩ l' ∧
      SameData c.proc.mem m (c.live.filter (·.1 ≠ x)) ∧ Freed m c.proc.heapbase l' y n ∧
      ∀ z k, mblocksize ≤ k → Freed c.proc.mem c.proc.heapbase l z k → Freed m c.proc.heapbase l' z k := by
  obtain ⟨y, n, eq, at_, fits⟩ := h.owned _ live
  dsimp only at eq
  have ready := h.ready_of_at at_
  have within := at_.within
  have bl := h.blocks
  have stop := bl.stop
  have lt := bl.lt
  have eight : mblocksize = 8 := rfl
  have small := (bl.sized _ at_.mem).2
  dsimp only at within small
  have whole := at_
  obtain ⟨p, q, rfl, place⟩ := at_.split
  have head : wsub 32 x mblocksize = y := by
    rw [wsub_of_le (by omega) (by omega)]
    omega
  obtain ⟨m', l', e, bl', co', used, kept, freed, rest⟩ := bl.free h.coalesced
  -- the others are still in use before the merges, and so after them
  have others : Owned c.proc.heapbase (p ++ ⟨n, false⟩ :: q) (c.live.filter (·.1 ≠ x)) := by
    intro e he
    obtain ⟨he, ne⟩ := List.mem_filter.1 he
    obtain ⟨y', n', eq', at', fits'⟩ := h.owned e he
    refine ⟨y', n', eq', ((at_mark rfl).1 at').resolve_right fun same => ?_, fits'⟩
    have ne : e.1 ≠ x := by simpa using ne
    omega
  refine ⟨m', l', y, n, eq, whole, ?_, ⟨bl', co', ?_, h.remove x, .inr ready⟩, others.sameData kept, place ▸ freed,
    rest⟩
  · rw [Libc.free, if_neg (by omega), if_neg (ready_not_corrupt ready bl), if_neg (by omega)]
    dsimp only
    rw [head, place, if_neg (by rw [bl.tag.ok]; exact not_not.2 rfl), if_neg (bl.tag.inuse_ne rfl), e]
    rfl
  · intro e he
    obtain ⟨y', n', eq', at', fits'⟩ := others e he
    exact ⟨y', n', eq', (used y' _ rfl).2 at', fits'⟩

/-- `free` of what is live and below the top, or of nothing. -/
lemma free (h : Held d sb c l) {x : Nat} (allowed : x = 0 ∨ ∃ n, (x, n) ∈ c.live)
    (inside : x = 0 ∨ x ≠ c.proc.heaptop) :
    ∃ c' l', MallocOp.step sb c (.free x) = .ok c' ∧ Held d sb c' l' ∧
      SameData c.proc.mem c'.proc.mem (c.live.filter (·.1 ≠ x)) := by
  rw [MallocOp.step]
  by_cases null : x = 0
  · rw [Libc.free, if_pos null]
    exact ⟨_, l, rfl, ⟨h.blocks, h.coalesced, h.owned.sub (List.filter_subset_self _), h.remove x, h.state⟩,
      fun _ _ _ _ _ => rfl⟩
  · obtain ⟨size, live⟩ := allowed.resolve_left null
    obtain ⟨m, l', y, n, -, -, e, h', same, -⟩ := h.free_spec live (inside.resolve_left null)
    rw [e]
    exact ⟨_, l', rfl, h', same⟩

/-- What has been asked for with a positive size is below the top. -/
lemma ne_top (h : Held mblocksize sb c l) {x size : Nat} (live : (x, size) ∈ c.live) : x ≠ c.proc.heaptop := by
  obtain ⟨y, n, eq, at_, -⟩ := h.owned _ live
  have within := at_.within
  have stop := h.blocks.stop
  have small := (h.blocks.sized _ at_.mem).2
  have eight : mblocksize = 8 := rfl
  dsimp only at eq within small
  omega

/-- A program that stores into what it has does not change the headers. -/
lemma store (h : Held d sb c l) {a : Nat} {v : UInt8} (allowed : MallocOp.Allowed c (.store a v)) :
    Held d sb ⟨{ c.proc with mem := Function.update c.proc.mem a v }, c.live⟩ l := by
  have bl := h.blocks
  have stop := bl.stop
  refine ⟨⟨bl.dvd, stop, bl.lt, bl.sized, ?_⟩, h.coalesced, h.owned, h.distinct, h.state⟩
  refine bl.tags.congr fun y prev b at_ tag => tag.congr fun x le lt => ?_
  have within := at_.within
  have size := (bl.sized b at_.mem).2
  have ne : x ≠ a := by
    obtain out | ⟨e, he, le', lt'⟩ := allowed
    · omega
    · obtain ⟨y', n, eq, at', fits⟩ := h.owned e he
      have apart := at_.apart at'
      dsimp only at apart
      omega
  exact Function.update_of_ne ne _ _

/-- A step keeps the invariant. -/
lemma step (h : Held d sb c l) (least : d ≤ mblocksize) {op : MallocOp} (permitted : op.Permitted c)
    (sizes : ∀ size, op = .malloc size → d ≤ roundUp size) (e : op.step sb c = .ok c') : ∃ l', Held d sb c' l' := by
  cases op with
  | malloc size =>
    obtain e' | e' | ⟨c'', l', e', h', -⟩ := h.malloc least (sizes size rfl) permitted
    · cases e'.symm.trans e
    · cases e'.symm.trans e
    · cases e'.symm.trans e
      exact ⟨l', h'⟩
  | free x =>
    obtain ⟨c'', l', e', h', -⟩ := h.free permitted (free_inside e)
    cases e'.symm.trans e
    exact ⟨l', h'⟩
  | store a v =>
    cases e
    exact ⟨l, h.store permitted⟩

/-- In the beginning there is no heap. -/
lemma start (mem : Mem) (w : W) : Held d sb ⟨⟨mem, 0, 0, w⟩, []⟩ [] := by
  refine ⟨row_nil (dvd_zero _) (Nat.two_pow_pos 32), .nil, ?_, .nil, .inl ⟨rfl, rfl⟩⟩
  intro e he
  cases he

/-- The invariant holds in every state that a program reaches. -/
lemma reach {mem : Mem} {w : W} (r : MallocReach sb mem w c) : ∃ l, Held mblocksize sb c l := by
  induction r with
  | start => exact ⟨[], start mem w⟩
  | @step c c' op _ allowed e ih =>
    obtain ⟨l, h⟩ := ih
    refine h.step le_rfl allowed.permitted (fun size eq => ?_) e
    subst eq
    exact roundUp_pos allowed.1 allowed.2

end Held

/-- A block starts at a multiple of the block size. -/
lemma Row.aligned {m : Mem} {base top y : Nat} {b : Piece} (bl : Row d m base top l) (at_ : At base l y b) :
    mblocksize ∣ y := by
  obtain ⟨p, q, rfl, rfl⟩ := at_.split
  have whole : ∀ p : List Piece, Sized d p → mblocksize ∣ total p := by
    intro p w
    induction p with
    | nil => exact dvd_zero _
    | cons c p ih =>
      rw [total_cons]
      exact Nat.dvd_add (w c List.mem_cons_self).1 (ih (w.sub (List.subset_cons_self ..)))
  exact Nat.dvd_add bl.dvd (whole p (bl.sized.sub (List.subset_append_left ..)))

/-- `sbrk` fails when the heap is set up. -/
def Abort.AtSetup (a : Abort) : Prop :=
  a = .err "malloc: initial sbrk failed" ∨ a = .err "malloc: sbrk failed aligning heap base"

/-- In every state that a program reaches:
* the blocks tile the heap, their headers are right, and no two neighbours are free;
* what has been allocated is aligned, lies in a block in use that is large enough for it, and does not overlap;
* the next call returns, or `sbrk` fails when the heap is set up; and what is still allocated then is as it was, but for
  the bytes that the program itself stores. -/
theorem malloc_heap_invariant {mem : Mem} {w : W} (r : MallocReach sb mem w c) :
    (∃ l, Blocks c.proc.mem c.proc.heapbase c.proc.heaptop l ∧ Coalesced l ∧
      ∀ e ∈ c.live, mblocksize ∣ e.1 ∧
        ∃ y n, e.1 = y + mblocksize ∧ At c.proc.heapbase l y ⟨n, true⟩ ∧ e.2 + mblocksize ≤ n) ∧
    (c.live.Pairwise fun e e' => e.1 + e.2 ≤ e'.1 ∨ e'.1 + e'.2 ≤ e.1) ∧
    ∀ op, MallocOp.Allowed c op → (∃ a, op.step sb c = .error a ∧ a.AtSetup) ∨
      ∃ c', op.step sb c = .ok c' ∧ ∀ e ∈ c.live, op ≠ .free e.1 → e ∈ c'.live ∧
        ((∀ a v, op ≠ .store a v) → ∀ x, e.1 ≤ x → x < e.1 + e.2 → c'.proc.mem x = c.proc.mem x) := by
  obtain ⟨l, h⟩ := Held.reach r
  refine ⟨⟨l, blocks_iff.2 h.blocks, h.coalesced, ?_⟩, h.owned.disjoint h.distinct, ?_⟩
  · intro e he
    obtain ⟨y, n, eq, at_, fits⟩ := h.owned e he
    refine ⟨?_, y, n, eq, at_, fits⟩
    rw [eq]
    exact Nat.dvd_add (h.blocks.aligned at_) (dvd_refl _)
  · intro op allowed
    cases op with
    | malloc size =>
      obtain e | e | ⟨c', l', e, -, same⟩ := h.malloc le_rfl (roundUp_pos allowed.1 allowed.2) allowed.2
      · exact .inl ⟨_, e, .inl rfl⟩
      · exact .inl ⟨_, e, .inr rfl⟩
      · refine .inr ⟨c', e, fun a ha _ => ⟨malloc_live e ha, fun _ => same a ha⟩⟩
    | free x =>
      have inside : x = 0 ∨ x ≠ c.proc.heaptop :=
        or_iff_not_imp_left.2 fun null => (allowed.resolve_left null).elim fun _ live => h.ne_top live
      obtain ⟨c', l', e, -, same⟩ := h.free allowed inside
      refine .inr ⟨c', e, fun a ha ne => ?_⟩
      have stays : a ∈ c.live.filter (·.1 ≠ x) := by
        refine List.mem_filter.2 ⟨ha, ?_⟩
        simpa using fun eq : a.1 = x => ne (by rw [eq])
      exact ⟨free_live e ▸ stays, fun _ => same a stays⟩
    | store a v => exact .inr ⟨_, rfl, fun e he _ => ⟨he, fun ne => absurd rfl (ne a v)⟩⟩

/-- A break that is an address. -/
abbrev Break := { n : Nat // 0 < n ∧ n < 2 ^ 32 }

/-- An `sbrk` that fails at the end of the address space. -/
def boundedSbrk : Sbrk Break where
  brk w := w.1
  call w amount := if h : w.1 + amount < 2 ^ 32 then (⟨w.1 + amount, by omega, h⟩, w.1) else (w, minusOne)
  moves w amount _ := by
    by_cases h : w.1 + amount < 2 ^ 32
    · rw [dif_pos h]
      exact .inl ⟨rfl, rfl⟩
    · rw [dif_neg h]
      exact .inr ⟨rfl, rfl⟩
  brk_pos w := w.2.1
  brk_lt w := w.2.2

/-- After `malloc(20)`, with a heap that had to be aligned. -/
def oneBlock : Client Break :=
  ⟨⟨Mem.setHeader (fun _ => 0) 4104 ⟨0, 0, mmagic, 4, 1, mmagic⟩, 4104, 4136, ⟨4136, by decide⟩⟩, [(4112, 20)]⟩

/-- After `malloc(8)` as well. -/
def twoBlocks : Client Break :=
  ⟨⟨oneBlock.proc.mem.setHeader 4136 ⟨4, 0, mmagic, 2, 1, mmagic⟩, 4104, 4152, ⟨4152, by decide⟩⟩,
    [(4144, 8), (4112, 20)]⟩

/-- After the first block has been freed. -/
def freedBlock : Client Break :=
  ⟨⟨deadbeef (twoBlocks.proc.mem.setHeader 4104 { twoBlocks.proc.mem.header 4104 with inuse := 0 }) 4112 24,
    4104, 4152, ⟨4152, by decide⟩⟩, [(4144, 8)]⟩

/-- Two calls of `malloc` make this heap. -/
lemma twoBlocks_reached : MallocReach boundedSbrk (fun _ => 0) ⟨4100, by decide⟩ twoBlocks := by
  have first : MallocReach boundedSbrk (fun _ => 0) ⟨4100, by decide⟩ oneBlock :=
    @MallocReach.step _ _ _ _ _ _ (.malloc 20) .start ⟨by decide, by decide⟩ rfl
  exact @MallocReach.step _ _ _ _ _ _ (.malloc 8) first ⟨by decide, by decide⟩ rfl

/-- A call of `free` makes this one of it. -/
lemma freedBlock_reached : MallocReach boundedSbrk (fun _ => 0) ⟨4100, by decide⟩ freedBlock :=
  @MallocReach.step _ _ _ _ _ _ (.free 4112) twoBlocks_reached (.inr ⟨20, by decide⟩) rfl

/-- After `free` the heap is a row of blocks, coalesced. -/
theorem malloc_heap_invariant_freed :
    MallocReach boundedSbrk (fun _ => 0) ⟨4100, by decide⟩ freedBlock ∧
      ∃ l, Blocks freedBlock.proc.mem 4104 4152 l ∧ Coalesced l := by
  obtain ⟨l, bl, co, -⟩ := (malloc_heap_invariant freedBlock_reached).1
  exact ⟨freedBlock_reached, l, bl, co⟩

end PDS.Libc
