import PDS.Lib.Fallible
import PDS.Libc.MallocFree

/-!
# Pointers that have been freed

What has been freed is refused as long as nothing is allocated (`double_free_caught`), for two reasons.

The first has nothing to do with blocks: addresses of headers are multiples of eight, so whatever `free` writes covers a
header as a whole or not at all, and no header that cannot be freed becomes one that can (`Spent`). This holds of every
heap that `malloc` builds, also of those that a size that wraps around or a negative amount for `sbrk` has spoiled, but
a program that stores into what it believes to have may spoil the header itself.

In a heap that is in order it may not: the block is the front of a free block, or a merge has wiped its header
(`Freed`), and no byte of that header belongs to anything that is live.
-/

namespace PDS.Libc
open Word Tags

variable {W : Type} {sb : Sbrk W} {c c' c₁ c₂ : Client W} {l : List Piece} {x y a b n size : Nat} {m m' : Mem}

/-- The header at `a` is not that of a block in use: `free` does not take the pointer that belongs to it. -/
def Spent (m : Mem) (a : Nat) : Prop := (m.header a).ok = false ∨ (m.header a).inuse = 0

/-- A header that has been wiped does not have the magic values. -/
lemma header_wiped {m : Mem} {y : Nat} (h : m.word y = 0xdeadbeef) : (m.header y).ok = false := by
  rw [Mem.header, Mheader.ok, h]
  rfl

/-- Different headers do not overlap. -/
lemma header_setHeader_of_ne {h : Mheader} (da : mblocksize ∣ a) (db : mblocksize ∣ b) (ne : a ≠ b) :
    (m.setHeader b h).header a = m.header a := by
  refine header_congr fun x le lt => setHeader_of_ne ?_
  rw [mblocksize] at *
  omega

/-- A change of a header that keeps the magic values, and does not set the in-use bit. -/
lemma Spent.setHeader (sp : Spent m a) (da : mblocksize ∣ a) (db : mblocksize ∣ b) {h : Mheader}
    (magic1 : h.magic1 = (m.header b).magic1) (magic2 : h.magic2 = (m.header b).magic2)
    (inuse : h.inuse = 0 ∨ h.inuse = (m.header b).inuse) : Spent (m.setHeader b h) a := by
  by_cases same : a = b
  · subst same
    rw [Spent, header_setHeader]
    obtain bad | zero := sp
    · left
      rw [Mheader.ok, magic1, magic2]
      exact bad
    · exact .inr (inuse.elim id fun eq => eq.trans zero)
  · rw [Spent, header_setHeader_of_ne da db same]
    exact sp

/-- Each word of a range that has been cleared. -/
lemma word_deadbeefWords {k : Nat} (lt : n < k) : (deadbeefWords m a k).word (a + 4 * n) = 0xdeadbeef := by
  induction k with
  | zero => omega
  | succ k ih =>
    rw [deadbeefWords]
    by_cases last : n = k
    · rw [last, word_setWord (by decide)]
    · rw [word_congr (fun x le lt' => setWord_of_ne (.inl (by omega))), ih (by omega)]

/-- A range of whole blocks is cleared: a header in it loses its magic values. -/
lemma Spent.deadbeef (sp : Spent m a) (da : mblocksize ∣ a) (db : mblocksize ∣ b) (dn : mblocksize ∣ n) :
    Spent (Libc.deadbeef m b n) a := by
  rw [mblocksize] at da db dn
  by_cases inside : b ≤ a ∧ a + 8 ≤ b + n
  · left
    refine header_wiped ?_
    have word := word_deadbeefWords (m := m) (a := b) (n := (a - b) / 4) (k := n / 4) (by omega)
    rw [show b + 4 * ((a - b) / 4) = a by omega] at word
    exact word
  · have same : (Libc.deadbeef m b n).header a = m.header a :=
      header_congr fun x le lt => deadbeef_of_ne (by rw [mblocksize] at lt; omega)
    rw [Spent, same]
    exact sp

/-- The offset to the next header is a multiple of eight. -/
lemma dvd_nextoff (h : Mheader) : mblocksize ∣ h.nextoff := Dvd.intro_left _ rfl

/-- The offset to the previous header is a multiple of eight. -/
lemma dvd_prevoff (h : Mheader) : mblocksize ∣ h.prevoff := Dvd.intro_left _ rfl

/-- Sums of multiples of eight that wrap around are multiples of eight. -/
lemma dvd_wadd (da : mblocksize ∣ a) (db : mblocksize ∣ b) : mblocksize ∣ wadd 32 a b := by
  rw [mblocksize, wadd] at *
  omega

/-- Differences of multiples of eight that wrap around are multiples of eight. -/
lemma dvd_wsub (da : mblocksize ∣ a) (db : mblocksize ∣ b) : mblocksize ∣ wsub 32 a b := by
  rw [mblocksize, wsub] at *
  omega

/-- The next header is at a multiple of eight. -/
lemma dvd_mNext (da : mblocksize ∣ a) : mblocksize ∣ mNext m a := dvd_wadd da (dvd_nextoff _)

/-- A merge does not bring a header back. -/
lemma Spent.trymerge (sp : Spent m a) (da : mblocksize ∣ a) (db : mblocksize ∣ b) (dn : mblocksize ∣ n) {top : Nat}
    (e : Libc.trymerge m top b n = .ok m') : Spent m' a := by
  have longer (v : BitVec 29) : Spent (m.setHeader b { m.header b with nextblock := v }) a :=
    sp.setHeader da db rfl rfl (.inr rfl)
  have relinked {m₁ : Mem} (sp : Spent m₁ a) (v : BitVec 29) :
      Spent (m₁.setHeader (mNext m n) { m₁.header (mNext m n) with prevblock := v }) a :=
    sp.setHeader da (dvd_mNext dn) rfl rfl (.inr rfl)
  rw [Libc.trymerge] at e
  split at e
  · cases e
  split at e
  · cases e
    exact sp
  rw [Except.ok.injEq] at e
  rw [← e]
  refine Spent.deadbeef ?_ da dn (dvd_refl _)
  dsimp only
  generalize mMkfield _ = v
  have longer := longer v
  generalize m.setHeader b { m.header b with nextblock := v } = m₁ at longer ⊢
  split_ifs
  · exact relinked longer _
  · exact longer

/-- A block is freed: its header is spent then, and those that were spent stay so. -/
lemma freeBlock_spent {base top : Nat} (da : mblocksize ∣ a) (db : mblocksize ∣ b)
    (sp : a = b ∨ Spent m a) (e : freeBlock m base top b = .ok m') : Spent m' a := by
  have first : Spent (m.setHeader b { m.header b with inuse := 0 }) a := by
    obtain rfl | sp := sp
    · right
      rw [header_setHeader]
    · exact sp.setHeader da db rfl rfl (.inl rfl)
  rw [freeBlock] at e
  generalize m.setHeader b { m.header b with inuse := 0 } = m₀ at first e
  have second : Spent (Libc.deadbeef m₀ (mData b) (m₀.header b).size) a :=
    first.deadbeef da (dvd_wadd db (dvd_refl _)) (dvd_wsub (dvd_nextoff _) (dvd_refl _))
  generalize Libc.deadbeef m₀ (mData b) (m₀.header b).size = m₁ at second e
  have last {m₂ : Mem} (third : Spent m₂ a)
      (e : (if b ≠ base then Libc.trymerge m₂ top (mPrev m₂ b) b else .ok m₂) = .ok m') : Spent m' a := by
    split_ifs at e with bottom
    · exact third.trymerge da (dvd_wsub db (dvd_prevoff _)) db e
    · cases e
      exact third
  dsimp only at e
  split at e
  · obtain ⟨m₂, merged, rest⟩ := bind_ok_iff.1 e
    exact last (second.trymerge da db (dvd_mNext db) merged) rest
  · exact last second e

/-- What `free` leaves as it was, and what it does to headers. -/
structure FreedOnce (s : Process W) (x : Nat) (s' : Process W) : Prop where
  base : s'.heapbase = s.heapbase
  top : s'.heaptop = s.heaptop
  corrupt : x ≠ 0 → ¬ s.corrupt
  inside : x ≠ 0 → s.heapbase ≤ x ∧ x < s.heaptop
  spent : ∀ a, mblocksize ∣ a → (x ≠ 0 ∧ a = wsub 32 x mblocksize) ∨ Spent s.mem a → Spent s'.mem a

/-- A call of `free` that returns. -/
lemma free_spent {s s' : Process W} (dx : mblocksize ∣ x) (e : free s x = .ok s') : FreedOnce s x s' := by
  rw [Libc.free] at e
  split at e
  · next null =>
    cases e
    refine ⟨rfl, rfl, fun some => absurd null some, fun some => absurd null some, fun a da sp => ?_⟩
    exact sp.resolve_left fun here => here.1 null
  split at e
  · cases e
  next sound =>
  split at e
  · cases e
  next range =>
  dsimp only at e
  split at e
  · cases e
  split at e
  · cases e
  obtain ⟨m, freed, same⟩ := bind_ok_iff.1 e
  cases same
  refine ⟨rfl, rfl, fun _ => sound, fun _ => by omega, fun a da sp => ?_⟩
  exact freeBlock_spent da (dvd_wsub dx (dvd_refl _)) (sp.imp_left And.right) freed

/-- The heap begins and ends at a multiple of eight. -/
structure Process.Aligned (s : Process W) : Prop where
  base : mblocksize ∣ s.heapbase
  top : mblocksize ∣ s.heaptop
  lt : s.heaptop < 2 ^ 32

/-- So does what has been allocated. -/
structure Client.Aligned (c : Client W) : Prop where
  heap : c.proc.Aligned
  live : ∀ e ∈ c.live, mblocksize ∣ e.1 ∧ e.1 ≠ 0

/-- `free` does not move the heap. -/
lemma FreedOnce.aligned {s s' : Process W} (h : FreedOnce s x s') (aligned : s.Aligned) : s'.Aligned :=
  ⟨h.base ▸ aligned.base, h.top ▸ aligned.top, h.top ▸ aligned.lt⟩

/-- The size that `malloc` works with is a multiple of eight, whatever has been asked for. -/
lemma dvd_roundUp (size : Nat) : mblocksize ∣ roundUp size := by
  have mask : 2 ^ 32 - 1 - (mblocksize - 1) = 2 ^ 32 - 2 ^ 3 := by decide
  have lt : wsub 32 (wadd 32 size mblocksize) 1 < 2 ^ 32 := Nat.mod_lt _ (by decide)
  rw [roundUp, mask, and_highMask (by decide) lt, mblocksize]
  omega

/-- The blocks that the search looks at are at multiples of eight. -/
lemma findFit_dvd {fuel i right top : Nat} {r : Option Nat × Nat} (di : mblocksize ∣ i)
    (e : findFit m top size fuel i right = .ok r) : ∀ mh, r.1 = some mh → mblocksize ∣ mh := by
  induction fuel generalizing i right with
  | zero => cases e
  | succ fuel ih =>
    rw [findFit] at e
    dsimp only at e
    split_ifs at e with inside ok right used small
    · exact ih (dvd_wadd di (dvd_nextoff _)) e
    · exact ih (dvd_wadd di (dvd_nextoff _)) e
    · cases e
      rintro _ ⟨⟩
      exact di
    · cases e
      intro mh no
      cases no

/-- The set-up leaves an aligned heap. -/
lemma mallocInit_aligned {s s' : Process W} (e : mallocInit sb s = .ok s') : s'.Aligned := by
  have eight : mblocksize = 8 := rfl
  have lt := wadd_lt 32
  have moves := sb.moves s.world 0 (by decide)
  have brk := sb.brk_lt s.world
  rw [mallocInit] at e
  dsimp only at e
  split_ifs at e with called failed zero
  have old := moves.resolve_right fun no => failed no.1
  rw [mallocAlign] at e
  dsimp only at e
  split_ifs at e with odd failed moved
  · cases e
    refine ⟨?_, ?_, lt _ _⟩
    · dsimp only
      rw [wadd, eight]
      omega
    · dsimp only
      rw [wadd, eight]
      omega
  · cases e
    refine ⟨?_, ?_, ?_⟩
    · dsimp only
      omega
    · dsimp only
      omega
    · dsimp only
      rw [old.1]
      exact brk

/-- `malloc` keeps the heap aligned, and what it returns is aligned. -/
lemma mallocBlock_aligned {s : Process W} {r : Process W × Nat} (h : s.Aligned) (ds : mblocksize ∣ size)
    (e : mallocBlock sb s size = .ok r) : r.1.Aligned ∧ mblocksize ∣ r.2 := by
  rw [mallocBlock] at e
  obtain ⟨⟨found, right⟩, search, e⟩ := bind_ok_iff.1 e
  cases found with
  | some mh =>
    obtain ⟨m, -, e⟩ := bind_ok_iff.1 e
    cases e
    exact ⟨⟨h.base, h.top, h.lt⟩, dvd_wadd (findFit_dvd h.base search mh rfl) (dvd_refl _)⟩
  | none =>
    obtain ⟨⟨s₂, mh⟩, grown, e⟩ := bind_ok_iff.1 e
    obtain ⟨h₂, new⟩ : s₂.Aligned ∧ mblocksize ∣ mh := by
      rw [mallocSbrk] at grown
      dsimp only at grown
      split_ifs at grown with failed moved
      · cases grown
        exact ⟨⟨h.base, h.top, h.lt⟩, dvd_zero _⟩
      · cases grown
        exact ⟨⟨h.base, dvd_wadd h.top (dvd_wadd ds (dvd_refl _)), wadd_lt _ _ _⟩, not_not.1 moved ▸ h.top⟩
    dsimp only at e
    split_ifs at e
    · cases e
      exact ⟨h₂, dvd_zero _⟩
    · cases e
      exact ⟨⟨h₂.base, h₂.top, h₂.lt⟩, dvd_wadd new (dvd_refl _)⟩

/-- The heap is set up by the first call. -/
lemma malloc_aligned {s : Process W} {r : Process W × Nat} (h : s.Aligned) (e : malloc sb s size = .ok r) :
    r.1.Aligned ∧ mblocksize ∣ r.2 := by
  have rest {s : Process W} (h : s.Aligned) (e : (if s.corrupt then
      .error (.errx "malloc: heapbase 0x%lx; heaptop 0x%lx") else mallocBlock sb s (roundUp size)) = .ok r) :
      r.1.Aligned ∧ mblocksize ∣ r.2 := by
    split_ifs at e
    exact mallocBlock_aligned h (dvd_roundUp _) e
  rw [malloc] at e
  dsimp only at e
  split at e
  · obtain ⟨s₁, setup, e⟩ := bind_ok_iff.1 e
    exact rest (mallocInit_aligned setup) e
  · exact rest h e

/-- What a program may do that asks for any size and stores anywhere: it frees only what it has. -/
def MallocOp.Plain (c : Client W) : MallocOp → Prop
  | malloc size => size < 2 ^ 32
  | free x => x = 0 ∨ ∃ n, (x, n) ∈ c.live
  | store _ _ => True

/-- The states that such a program reaches. -/
inductive PlainReach (sb : Sbrk W) (mem : Mem) (w : W) : Client W → Prop where
  | start : PlainReach sb mem w ⟨⟨mem, 0, 0, w⟩, []⟩
  | step {c c' : Client W} {op : MallocOp} : PlainReach sb mem w c → op.Plain c → op.step sb c = .ok c' →
    PlainReach sb mem w c'

/-- A program that asks for sizes that `malloc` can serve is one of them. -/
lemma MallocReach.plain {mem : Mem} {w : W} (r : MallocReach sb mem w c) : PlainReach sb mem w c := by
  induction r with
  | start => exact .start
  | @step _ _ op _ allowed e ih =>
    refine ih.step ?_ e
    cases op with
    | malloc size =>
      have le := allowed.2
      show size < 2 ^ 32
      omega
    | free x => exact allowed
    | store a v => trivial

/-- A step keeps the heap aligned. -/
lemma Client.Aligned.step (h : c.Aligned) {op : MallocOp} (plain : op.Plain c) (e : op.step sb c = .ok c') :
    c'.Aligned := by
  cases op with
  | malloc size =>
    rw [MallocOp.step] at e
    obtain ⟨⟨s, x⟩, run, e⟩ := bind_ok_iff.1 e
    cases e
    obtain ⟨heap, new⟩ := malloc_aligned h.heap run
    refine ⟨heap, fun e mem => ?_⟩
    dsimp only at mem
    split_ifs at mem with null
    · exact h.live e mem
    · obtain rfl | old := List.mem_cons.1 mem
      · exact ⟨new, null⟩
      · exact h.live e old
  | free x =>
    rw [MallocOp.step] at e
    obtain ⟨s, run, e⟩ := bind_ok_iff.1 e
    cases e
    have dx : mblocksize ∣ x := by
      obtain rfl | ⟨n, live⟩ := plain
      · exact dvd_zero _
      · exact (h.live _ live).1
    exact ⟨(free_spent dx run).aligned h.heap, fun e mem => h.live e (List.mem_of_mem_filter mem)⟩
  | store a v =>
    cases e
    exact ⟨⟨h.heap.base, h.heap.top, h.heap.lt⟩, h.live⟩

/-- The heap is aligned in every state that a program reaches. -/
lemma PlainReach.aligned {mem : Mem} {w : W} (r : PlainReach sb mem w c) : c.Aligned := by
  induction r with
  | start => exact ⟨⟨dvd_zero _, dvd_zero _, Nat.two_pow_pos 32⟩, fun e no => by cases no⟩
  | step _ plain e ih => exact ih.step plain e

/-- Frees of live pointers, and stores that `S` allows, one after the other. -/
inductive FreeRun (S : Client W → Nat → Prop) (sb : Sbrk W) (c : Client W) : Client W → Prop where
  | refl : FreeRun S sb c c
  | free {c' c'' : Client W} {x : Nat} : FreeRun S sb c c' → MallocOp.Allowed c' (.free x) →
    MallocOp.step sb c' (.free x) = .ok c'' → FreeRun S sb c c''
  | store {c' c'' : Client W} {a : Nat} {v : UInt8} : FreeRun S sb c c' → S c' a →
    MallocOp.step sb c' (.store a v) = .ok c'' → FreeRun S sb c c''

/-- A program stores into what it has, or outside the heap. -/
def Has (c : Client W) (a : Nat) : Prop := ∀ v, MallocOp.Allowed c (.store a v)

/-- A program stores anywhere but in the header of the block of `x`. -/
def Spares (x : Nat) (_ : Client W) (a : Nat) : Prop := a < x - mblocksize ∨ x ≤ a

/-- The heap of a program in which the block of the size `n` at `y` has been freed. -/
def FreedIn (sb : Sbrk W) (c : Client W) (y n : Nat) : Prop :=
  ∃ l, Held mblocksize sb c l ∧ Freed c.proc.mem c.proc.heapbase l y n

/-- A free frees the block, or leaves it free. -/
lemma Held.freedIn (h : Held mblocksize sb c l) (live : (x, size) ∈ c.live)
    (e : MallocOp.step sb c (.free x) = .ok c') :
    (∃ n, 2 * mblocksize ≤ n ∧ FreedIn sb c' (x - mblocksize) n) ∧
      ∀ y n, mblocksize ≤ n → Freed c.proc.mem c.proc.heapbase l y n → FreedIn sb c' y n := by
  obtain ⟨m, l', y, n, eq, at_, e', h', -, freed, rest⟩ := h.free_spec live (h.ne_top live)
  rw [MallocOp.step, e'] at e
  cases e
  have room := (h.blocks.sized _ at_.mem).2
  dsimp only at room
  refine ⟨⟨n, by omega, l', h', ?_⟩, fun y n header old => ⟨l', h', rest y n header old⟩⟩
  rwa [eq, Nat.add_sub_cancel]

/-- A block that has been freed stays so, inside a larger one perhaps, when another one is. -/
lemma FreedIn.free {y n : Nat} (h : FreedIn sb c y n) (header : mblocksize ≤ n) (allowed : MallocOp.Allowed c (.free x))
    (e : MallocOp.step sb c (.free x) = .ok c') : FreedIn sb c' y n := by
  obtain ⟨l, held, freed⟩ := h
  obtain rfl | ⟨size, live⟩ := allowed
  · rw [MallocOp.step, Libc.free, if_pos rfl] at e
    cases e
    refine ⟨l, ⟨held.blocks, held.coalesced, ?_, held.remove 0, held.state⟩, freed⟩
    exact held.owned.sub (List.filter_subset_self _)
  · exact (held.freedIn live e).2 y n header freed

/-- A program that stores into what it has does not touch the header that has been wiped. -/
lemma FreedIn.store {y n a : Nat} {v : UInt8} (h : FreedIn sb c y n) (header : mblocksize ≤ n)
    (allowed : MallocOp.Allowed c (.store a v)) (e : MallocOp.step sb c (.store a v) = .ok c') : FreedIn sb c' y n := by
  obtain ⟨l, held, z, k, at_, le, fits, mark⟩ := h
  cases e
  refine ⟨l, held.store allowed, z, k, at_, le, fits, ?_⟩
  refine mark.imp_right fun w => ⟨w.1, (word_congr fun x le' lt => ?_).trans w.2⟩
  have eight : mblocksize = 8 := rfl
  have within := at_.within
  have stop := held.blocks.stop
  dsimp only at within
  have ne : x ≠ a := by
    obtain out | ⟨e, he, le, lt⟩ := allowed
    · omega
    · obtain ⟨y', n', eq, at', fits'⟩ := held.owned e he
      obtain ⟨-, same⟩ | apart := at'.apart at_
      · cases same
      · dsimp only at apart
        omega
  exact Function.update_of_ne ne _ _

/-- And so it does over a sequence of calls of `free`. -/
lemma FreedIn.run {y n : Nat} (h : FreedIn sb c y n) (header : mblocksize ≤ n) (run : FreeRun Has sb c c') :
    FreedIn sb c' y n := by
  induction run with
  | refl => exact h
  | free _ allowed e ih => exact ih.free header allowed e
  | store _ allowed e ih => exact ih.store header (allowed _) e

/-- A block that is free is not freed. -/
lemma FreedIn.refused {n : Nat} (h : FreedIn sb c (x - mblocksize) n) (room : 2 * mblocksize ≤ n)
    (le : mblocksize ≤ x) :
    Libc.free c.proc x = .error (.errx "free: Invalid pointer %p freed (already free)") ∨
      Libc.free c.proc x = .error (.errx "free: Invalid pointer %p freed (corrupt header)") := by
  obtain ⟨l, held, z, k, at_, below, fits, mark⟩ := h
  have eight : mblocksize = 8 := rfl
  have ready := held.ready_of_at at_
  have within := at_.within
  have stop := held.blocks.stop
  have lt := held.blocks.lt
  dsimp only at within
  have head : wsub 32 x mblocksize = x - mblocksize := wsub_of_le le (by omega)
  rw [Libc.free, if_neg (by omega), if_neg (ready_not_corrupt ready held.blocks), if_neg (by omega)]
  dsimp only
  rw [head]
  obtain same | ⟨-, wiped⟩ := mark
  · left
    obtain ⟨p, q, rfl, start⟩ := at_.split
    have tag := held.blocks.tag
    rw [← start, same] at tag
    rw [if_neg (by rw [tag.ok]; exact not_not.2 rfl), if_pos (tag.inuse_eq rfl)]
  · right
    rw [if_pos (by rw [header_wiped wiped]; exact Bool.false_ne_true)]

/-- After the free of `x`, in a heap whose blocks may overlap. -/
structure SpentIn (c : Client W) (x : Nat) : Prop where
  aligned : c.Aligned
  some : x ≠ 0
  whole : mblocksize ∣ x
  sound : ¬ c.proc.corrupt
  inside : c.proc.heapbase ≤ x ∧ x < c.proc.heaptop
  spent : Spent c.proc.mem (x - mblocksize)

/-- The header of a pointer to the heap. -/
lemma Process.Aligned.header {s : Process W} (h : s.Aligned) (some : x ≠ 0) (whole : mblocksize ∣ x)
    (inside : x < s.heaptop) : wsub 32 x mblocksize = x - mblocksize :=
  wsub_of_le (Nat.le_of_dvd (Nat.pos_of_ne_zero some) whole) (inside.trans h.lt)

/-- The header of what is freed is spent. -/
lemma Client.Aligned.spentIn (h : c.Aligned) (live : (x, size) ∈ c.live)
    (e : MallocOp.step sb c (.free x) = .ok c') : SpentIn c' x := by
  obtain ⟨whole, some⟩ := h.live _ live
  have aligned := h.step (show (MallocOp.free x).Plain c from .inr ⟨size, live⟩) e
  rw [MallocOp.step] at e
  obtain ⟨s, run, e⟩ := bind_ok_iff.1 e
  cases e
  have freed := free_spent whole run
  have inside := freed.inside some
  refine ⟨aligned, some, whole, ?_, ?_, ?_⟩
  · rw [Process.corrupt, freed.base, freed.top]
    exact freed.corrupt some
  · rw [freed.base, freed.top]
    exact inside
  · rw [← h.heap.header some whole inside.2]
    exact freed.spent _ (dvd_wsub whole (dvd_refl _)) (.inl ⟨some, rfl⟩)

/-- What has been freed stays so as long as nothing is allocated and its header is left alone. -/
lemma SpentIn.run (h : SpentIn c x) (run : FreeRun (Spares x) sb c c') : SpentIn c' x := by
  have whole := h.whole
  have below : mblocksize ∣ x - mblocksize := Nat.dvd_sub whole (dvd_refl _)
  induction run with
  | refl => exact h
  | @free c₁ c₂ y _ allowed e ih =>
    have aligned := ih.aligned.step (show (MallocOp.free y).Plain c₁ from allowed) e
    have dy : mblocksize ∣ y := by
      obtain rfl | ⟨n, live⟩ := allowed
      · exact dvd_zero _
      · exact (ih.aligned.live _ live).1
    rw [MallocOp.step] at e
    obtain ⟨s, run, e⟩ := bind_ok_iff.1 e
    cases e
    have freed := free_spent dy run
    refine ⟨aligned, ih.some, ih.whole, ?_, ?_, freed.spent _ below (.inr ih.spent)⟩
    · rw [Process.corrupt, freed.base, freed.top]
      exact ih.sound
    · rw [freed.base, freed.top]
      exact ih.inside
  | @store c₁ c₂ a v _ spares e ih =>
    have aligned := ih.aligned.step (show (MallocOp.store a v).Plain c₁ from trivial) e
    cases e
    refine ⟨aligned, ih.some, ih.whole, ih.sound, ih.inside, ?_⟩
    have le : mblocksize ≤ x := Nat.le_of_dvd (Nat.pos_of_ne_zero ih.some) whole
    have same : Mem.header (Function.update c₁.proc.mem a v) (x - mblocksize) = c₁.proc.mem.header (x - mblocksize) := by
      refine header_congr fun z low high => Function.update_of_ne ?_ ..
      rw [Spares] at spares
      omega
    rw [Spent, same]
    exact ih.spent

/-- `free` looks at the header after it has found the pointer in the heap. -/
lemma SpentIn.refused (h : SpentIn c x) :
    Libc.free c.proc x = .error (.errx "free: Invalid pointer %p freed (already free)") ∨
      Libc.free c.proc x = .error (.errx "free: Invalid pointer %p freed (corrupt header)") := by
  have inside := h.inside
  rw [Libc.free, if_neg h.some, if_neg h.sound, if_neg (by omega)]
  dsimp only
  rw [h.aligned.heap.header h.some h.whole inside.2]
  by_cases ok : (c.proc.mem.header (x - mblocksize)).ok = true
  · left
    rw [if_neg (not_not.2 ok), if_pos (h.spent.resolve_left (by rw [ok]; exact fun no => by cases no))]
  · exact .inr (if_pos ok)

/-- A pointer that has been freed is refused as long as nothing is allocated, whatever else is freed: after requests of
any sizes, when nothing is stored into its header; and in a heap that is in order, when the program stores only into what
it has. The checks that refuse it come before the heap is written. -/
theorem double_free_caught {mem : Mem} {w : W} (r : PlainReach sb mem w c) (live : (x, size) ∈ c.live)
    (first : MallocOp.step sb c (.free x) = .ok c₁)
    (run : FreeRun (Spares x) sb c₁ c₂ ∨ MallocReach sb mem w c ∧ FreeRun Has sb c₁ c₂) :
    free c₂.proc x = .error (.errx "free: Invalid pointer %p freed (already free)") ∨
      free c₂.proc x = .error (.errx "free: Invalid pointer %p freed (corrupt header)") := by
  obtain run | ⟨r', run⟩ := run
  · exact ((r.aligned.spentIn live first).run run).refused
  · obtain ⟨l, h⟩ := Held.reach r'
    obtain ⟨⟨n, room, freed⟩, -⟩ := h.freedIn live first
    obtain ⟨y, k, eq, -, -⟩ := h.owned _ live
    have le : mblocksize ≤ x := by
      dsimp only at eq
      omega
    exact (freed.run (by omega) run).refused room le

/-- After `malloc(20)` and `malloc(8)`, the second block has been freed. -/
def freedSecond : Client Break :=
  let m := twoBlocks.proc.mem.setHeader 4136 { twoBlocks.proc.mem.header 4136 with inuse := 0 }
  ⟨{ twoBlocks.proc with mem := deadbeef m 4144 8 }, [(4112, 20)]⟩

/-- Both have been freed, and are one block. -/
def freedBoth : Client Break :=
  let m := freedSecond.proc.mem.setHeader 4104 { freedSecond.proc.mem.header 4104 with inuse := 0 }
  let m := deadbeef m 4112 24
  let m := m.setHeader 4104 { m.header 4104 with nextblock := 6 }
  ⟨{ freedSecond.proc with mem := deadbeef m 4136 8 }, []⟩

/-- The header of the second block is wiped when the first one is freed, too. -/
theorem double_free_caught_wiped : ∃ c₂, FreeRun Has boundedSbrk freedSecond c₂ ∧
    FreeRun (Spares 4144) boundedSbrk freedSecond c₂ ∧ c₂.proc.mem.word 4136 = 0xdeadbeef ∧
    (free c₂.proc 4144 = .error (.errx "free: Invalid pointer %p freed (already free)") ∨
      free c₂.proc 4144 = .error (.errx "free: Invalid pointer %p freed (corrupt header)")) := by
  have first : MallocOp.step boundedSbrk twoBlocks (.free 4144) = .ok freedSecond := rfl
  have run {S : Client Break → Nat → Prop} : FreeRun S boundedSbrk freedSecond freedBoth :=
    @FreeRun.free _ _ _ _ _ _ 4112 .refl (.inr ⟨20, by decide⟩) rfl
  have live : (4144, 8) ∈ twoBlocks.live := by decide
  exact ⟨freedBoth, run, run, by decide, double_free_caught twoBlocks_reached.plain live first (.inl run)⟩

end PDS.Libc
