import PDS.Libc.MallocRun

/-!
# Requests of any size

`malloc` rounds the size up, adds the size of a header and passes the sum to `sbrk`, which takes a signed amount. The
first two can wrap around, and sums from `2^31` on are negative amounts: `sbrk` lowers the break then, and `malloc`
takes the old break for new memory. `malloc_promised_iff` says for which requests `malloc` keeps its promise.
-/

namespace PDS.Libc
open Word Tags

variable {W : Type} {sb : Sbrk W} {c : Client W} {l : List Piece} {size : Nat}

/-- The amounts from `2^31` on are negative: the break is lowered, or the call fails and changes nothing. A break is a
user address, and not at the end of the address space. -/
structure Sbrk.Signed (sb : Sbrk W) : Prop where
  lowers : ∀ w amount, 2 ^ 31 ≤ amount → amount < 2 ^ 32 →
    ((sb.call w amount).2 = sb.brk w ∧ sb.brk (sb.call w amount).1 + (2 ^ 32 - amount) = sb.brk w) ∨
      ((sb.call w amount).2 = minusOne ∧ sb.brk (sb.call w amount).1 = sb.brk w)
  user : ∀ w, sb.brk w + mblocksize < 2 ^ 32

/-- What `malloc` promises: it returns `NULL` and the heap is as it was, or a pointer to `size` bytes of the heap that
belong to nothing else. -/
def Promised (sb : Sbrk W) (c : Client W) (size : Nat) : Prop :=
  ∃ s x l, malloc sb c.proc size = .ok (s, x) ∧
    ((x = 0 ∧ Held 0 sb ⟨s, c.live⟩ l ∧ s.mem = c.proc.mem ∧
        (c.proc.heapbase ≠ 0 → s.heapbase = c.proc.heapbase ∧ s.heaptop = c.proc.heaptop)) ∨
      (x ≠ 0 ∧ Held 0 sb ⟨s, (x, size) :: c.live⟩ l ∧ s.heapbase ≤ x ∧ x + size ≤ s.heaptop ∧
        ∀ e ∈ c.live, x + size ≤ e.1 ∨ e.1 + e.2 ≤ x))

/-- The heap that a call of `malloc` works on: it is set up by the first call. -/
def heapOf (sb : Sbrk W) (s : Process W) : Except Abort (Process W) :=
  if s.heapbase = 0 then mallocInit sb s else .ok s

/-- A request that can be met, or that `sbrk` refuses. -/
def Served (sb : Sbrk W) (s : Process W) (l : List Piece) (size : Nat) : Prop :=
  (size ≤ 2 ^ 32 - 8 ∧ (Fits l (roundUp size) ∨ roundUp size + mblocksize < 2 ^ 31)) ∨
    (¬ Fits l (roundUp size) ∧ (sb.call s.world (wadd 32 (roundUp size) mblocksize)).2 = minusOne)

/-- The heap is set up, or `sbrk` fails. -/
lemma Held.heapOf (h : Held 0 sb c l) :
    (∃ a, heapOf sb c.proc = .error a) ∨
      ∃ s, heapOf sb c.proc = .ok s ∧ s.Ready sb ∧ s.mem = c.proc.mem ∧ Held 0 sb ⟨s, c.live⟩ l ∧
        (c.proc.heapbase ≠ 0 → s = c.proc) := by
  rw [Libc.heapOf]
  by_cases zero : c.proc.heapbase = 0
  · rw [if_pos zero]
    obtain e | e | ⟨s, e, mem, ready, h'⟩ := h.init zero
    · exact .inl ⟨_, e⟩
    · exact .inl ⟨_, e⟩
    · have none : l = [] := by
        cases l with
        | nil => rfl
        | cons b l => exact absurd zero (h.ready_of_at (.inl ⟨rfl, rfl⟩)).1.ne'
      subst none
      exact .inr ⟨s, e, ready, mem, h', fun ne => absurd zero ne⟩
  · rw [if_neg zero]
    exact .inr ⟨_, rfl, h.state.resolve_left fun state => zero state.1, rfl, h, fun _ => rfl⟩

/-- `malloc` sets the heap up, checks it and finds a block. -/
lemma malloc_eq (s : Process W) (size : Nat) : malloc sb s size = heapOf sb s >>= fun s =>
    if s.corrupt then .error (.errx "malloc: heapbase 0x%lx; heaptop 0x%lx") else mallocBlock sb s (roundUp size) := by
  rw [malloc, heapOf]
  split <;> rfl

/-- On a heap that is set up it finds a block. -/
lemma malloc_of_heapOf {s : Process W} (h : Held 0 sb ⟨s, c.live⟩ l) (ready : s.Ready sb)
    (e : heapOf sb c.proc = .ok s) :
    malloc sb c.proc size = mallocBlock sb s (roundUp size) := by
  rw [malloc_eq, e]
  exact if_neg (ready_not_corrupt ready h.blocks)

/-- The requests that can be met are met, or refused. -/
lemma promised_of_room {s : Process W} (ready : s.Ready sb) (h : Held 0 sb ⟨s, c.live⟩ l) (e : heapOf sb c.proc = .ok s)
    (mem : s.mem = c.proc.mem) (same : c.proc.heapbase ≠ 0 → s = c.proc) (le : size ≤ 2 ^ 32 - 8)
    (room : Fits l (roundUp size) ∨ roundUp size + mblocksize < 2 ^ 31) : Promised sb c size := by
  have small : Fits l (roundUp size) ∨ size ≤ 2 ^ 31 - 16 := by
    refine room.imp_right fun lt => ?_
    obtain ⟨dvd, up, -⟩ := roundUp_spec _ le
    rw [mblocksize] at lt dvd
    omega
  obtain ⟨s', x, l', run, h', -, null⟩ := h.mallocBlock ready (Nat.zero_le _) (Nat.zero_le _) le small
  refine ⟨s', x, l', (malloc_of_heapOf h ready e).trans run, ?_⟩
  by_cases zero : x = 0
  · rw [if_pos zero] at h'
    obtain ⟨mem', base, top⟩ := null zero
    refine .inl ⟨zero, h', mem'.trans mem, fun ne => ?_⟩
    rw [← same ne]
    exact ⟨base, top⟩
  · rw [if_neg zero] at h'
    obtain ⟨y, n, eq, at_, fits⟩ := h'.owned _ List.mem_cons_self
    have within := at_.within
    have stop := h'.blocks.stop
    have apart := List.pairwise_cons.1 (h'.owned.disjoint h'.distinct)
    dsimp only at eq fits within stop
    exact .inr ⟨zero, h', by omega, by omega, apart.1⟩

/-- A request that `sbrk` refuses changes nothing. -/
lemma promised_of_refused (signed : sb.Signed) {s : Process W} (ready : s.Ready sb) (h : Held 0 sb ⟨s, c.live⟩ l)
    (e : heapOf sb c.proc = .ok s) (mem : s.mem = c.proc.mem) (same : c.proc.heapbase ≠ 0 → s = c.proc)
    (none : ¬ Fits l (roundUp size)) (refused : (sb.call s.world (wadd 32 (roundUp size) mblocksize)).2 = minusOne) :
    Promised sb c size := by
  obtain ⟨right, -, run⟩ := mallocBlock_none sb h.blocks none
  have lt := wadd_lt 32 (roundUp size) mblocksize
  have moves := sb.moves s.world (wadd 32 (roundUp size) mblocksize)
  have lowers := signed.lowers s.world (wadd 32 (roundUp size) mblocksize)
  have user := signed.user s.world
  dsimp only at run
  rw [mallocSbrk] at run
  generalize wadd 32 (roundUp size) mblocksize = amount at lt moves lowers run refused
  generalize sb.call s.world amount = r at moves lowers run refused
  obtain ⟨w, x⟩ := r
  dsimp only [bind, Except.bind] at moves lowers run refused
  rw [if_pos refused] at run
  have eight : mblocksize = 8 := rfl
  have high : minusOne = 2 ^ 32 - 1 := rfl
  have brk : sb.brk w = sb.brk s.world := by
    by_cases positive : amount < 2 ^ 31
    · obtain h | h := moves positive
      · omega
      · exact h.2
    · obtain h | h := lowers (not_lt.1 positive) lt
      · omega
      · exact h.2
  refine ⟨{ s with world := w }, 0, l, (malloc_of_heapOf h ready e).trans run, .inl ⟨rfl, ?_, mem, fun ne => ?_⟩⟩
  · exact ⟨h.blocks, h.coalesced, h.owned, h.distinct, .inr ⟨ready.1, brk.trans ready.2⟩⟩
  · rw [← same ne]
    exact ⟨rfl, rfl⟩

/-- Sizes that wrap around are rounded up to `0`. -/
lemma roundUp_wraps (big : 2 ^ 32 - 8 < size) (lt : size < 2 ^ 32) : roundUp size = 0 := by
  have eight : mblocksize = 8 := rfl
  have up : wsub 32 (wadd 32 size mblocksize) 1 = size + 7 - 2 ^ 32 := by
    rw [wsub, wadd, eight]
    omega
  have mask : 2 ^ 32 - 1 - (mblocksize - 1) = 2 ^ 32 - 2 ^ 3 := by decide
  rw [roundUp, up, mask, and_highMask (by decide) (by omega)]
  omega

/-- A pointer that is not followed by the bytes breaks the promise. -/
lemma not_promised {s : Process W} {x : Nat} (run : malloc sb c.proc size = .ok (s, x)) (some : x ≠ 0)
    (short : s.heaptop < x + size) : ¬ Promised sb c size := by
  rintro ⟨s', x', l', run', kept⟩
  cases run.symm.trans run'
  obtain ⟨zero, -⟩ | ⟨-, -, -, room, -⟩ := kept
  · exact some zero
  · exact absurd room (not_le.2 short)

/-- A size that wraps around gets any free block. -/
lemma not_promised_of_fits {s : Process W} (ready : s.Ready sb) (h : Held 0 sb ⟨s, c.live⟩ l)
    (e : heapOf sb c.proc = .ok s) (big : 2 ^ 32 - 8 < size) (lt : size < 2 ^ 32) (fits : Fits l (roundUp size)) :
    ¬ Promised sb c size := by
  have eight : mblocksize = 8 := rfl
  have dvd : mblocksize ∣ roundUp size := by
    rw [roundUp_wraps big lt]
    exact dvd_zero _
  obtain ⟨s₁, l₁, y, k, run, -, -, -, alloc⟩ :=
    mallocBlock_take ready h.blocks h.coalesced dvd (Nat.zero_le _) (Nat.zero_le _) fits
  have top := alloc.blocks.lt
  exact not_promised ((malloc_of_heapOf h ready e).trans run) (by omega) (by omega)

/-- What `sbrk` is asked for when the size or the sum wraps around, or the amount is negative: the new top is no further
than the header. -/
lemma heaptop_short (signed : sb.Signed) {s : Process W} (ready : s.Ready sb) (lt : size < 2 ^ 32)
    (room : ¬ (size ≤ 2 ^ 32 - 8 ∧ roundUp size + mblocksize < 2 ^ 31))
    (moved : (sb.call s.world (wadd 32 (roundUp size) mblocksize)).2 ≠ minusOne) :
    wadd 32 s.heaptop (wadd 32 (roundUp size) mblocksize) < s.heaptop + mblocksize + size := by
  have eight : mblocksize = 8 := rfl
  have less := wadd_lt 32 s.heaptop (wadd 32 (roundUp size) mblocksize)
  have spec (le : size ≤ 2 ^ 32 - 8) := roundUp_spec _ le
  have user := signed.user s.world
  have ready := ready.2
  have lowers := signed.lowers s.world (wadd 32 (roundUp size) mblocksize)
  generalize roundUp size = r at spec room moved lowers less ⊢
  rw [eight] at room user less lowers moved ⊢
  by_cases le : size ≤ 2 ^ 32 - 8
  · obtain ⟨dvd, up, near⟩ := spec le
    have big : 2 ^ 31 ≤ r + 8 := not_lt.1 fun small => room ⟨le, small⟩
    rw [eight] at dvd near
    by_cases wrapped : r + 8 = 2 ^ 32
    · have zero : wadd 32 r 8 = 0 := by rw [wadd, wrapped, Nat.mod_self]
      rw [zero, wadd_of_lt (by omega)]
      omega
    · have sum : wadd 32 r 8 = r + 8 := wadd_of_lt (by omega)
      obtain lowered | failed := lowers (by omega) (by omega)
      · have brk := lowered.2
        generalize sb.brk (sb.call _ _).1 = brk' at brk
        rw [sum] at brk ⊢
        have wrap : wadd 32 s.heaptop (r + 8) = s.heaptop + (r + 8) - 2 ^ 32 := by
          rw [wadd]
          omega
        omega
      · exact absurd failed.1 moved
  · omega

/-- `sbrk` does not fail: the old break is the top of the heap, or the program is stopped. -/
lemma mallocSbrk_of_moved {s : Process W} {amount : Nat} (moved : (sb.call s.world amount).2 ≠ minusOne) :
    mallocSbrk sb s amount =
      if (sb.call s.world amount).2 ≠ s.heaptop then
        .error (.errx "malloc: Internal error - heap top moved itself from 0x%lx to 0x%lx")
      else .ok ({ s with heaptop := wadd 32 s.heaptop amount, world := (sb.call s.world amount).1 }, s.heaptop) := by
  rw [mallocSbrk]
  dsimp only
  rw [if_neg moved]
  split_ifs with other
  · rfl
  · rw [not_not.1 other]

/-- Memory that `malloc` has asked `sbrk` for in vain. -/
lemma not_promised_of_grow (signed : sb.Signed) {s : Process W} (ready : s.Ready sb) (h : Held 0 sb ⟨s, c.live⟩ l)
    (e : heapOf sb c.proc = .ok s) (lt : size < 2 ^ 32)
    (room : ¬ (size ≤ 2 ^ 32 - 8 ∧ roundUp size + mblocksize < 2 ^ 31)) (none : ¬ Fits l (roundUp size))
    (moved : (sb.call s.world (wadd 32 (roundUp size) mblocksize)).2 ≠ minusOne) : ¬ Promised sb c size := by
  have short := heaptop_short signed ready lt room moved
  have user := signed.user s.world
  have pos := ready.1
  have stop := h.blocks.stop
  have sbrk := mallocSbrk_of_moved moved
  obtain ⟨right, -, run⟩ := mallocBlock_none sb h.blocks none
  have run := (malloc_of_heapOf h ready e).trans run
  dsimp only at stop
  rw [ready.2] at user
  rw [sbrk] at run
  by_cases other : (sb.call s.world (wadd 32 (roundUp size) mblocksize)).2 ≠ s.heaptop
  · rw [if_pos other] at run
    rintro ⟨s', x, l', run', -⟩
    cases run.symm.trans run'
  · rw [if_neg other] at run
    have nonzero : s.heaptop ≠ 0 := by omega
    have run := run.trans (if_neg nonzero)
    have data : mData s.heaptop = s.heaptop + mblocksize := wadd_of_lt user
    rw [data] at run
    exact not_promised run (by omega) short

/-- In every heap, `malloc` keeps its promise exactly for the requests that can be met or that `sbrk` refuses: the size
does not wrap around, and there is a free block for it or the amount that `sbrk` is asked for is positive; or there is
no free block for what the size is rounded to, and `sbrk` fails. -/
theorem malloc_promised_iff (signed : sb.Signed) (h : Held 0 sb c l) (size : UInt32) :
    Promised sb c size.toNat ↔ ∃ s, heapOf sb c.proc = .ok s ∧ Served sb s l size.toNat := by
  have lt := size.toNat_lt
  obtain ⟨a, e⟩ | ⟨s, e, ready, mem, held, same⟩ := h.heapOf
  · refine iff_of_false ?_ ?_
    · rintro ⟨s, x, l, run, -⟩
      rw [malloc_eq, e] at run
      cases run
    · rintro ⟨s, ok, -⟩
      cases e.symm.trans ok
  · constructor
    · intro promised
      refine ⟨s, e, ?_⟩
      by_cases room : size.toNat ≤ 2 ^ 32 - 8 ∧ (Fits l (roundUp size.toNat) ∨ roundUp size.toNat + mblocksize < 2 ^ 31)
      · exact .inl room
      · by_cases fits : Fits l (roundUp size.toNat)
        · have big : 2 ^ 32 - 8 < size.toNat := not_le.1 fun le => room ⟨le, .inl fits⟩
          exact absurd promised (not_promised_of_fits ready held e big lt fits)
        · refine .inr ⟨fits, not_not.1 fun moved => ?_⟩
          have room : ¬ (size.toNat ≤ 2 ^ 32 - 8 ∧ roundUp size.toNat + mblocksize < 2 ^ 31) :=
            fun small => room ⟨small.1, .inr small.2⟩
          exact not_promised_of_grow signed ready held e lt room fits moved promised
    · rintro ⟨s', e', served⟩
      cases e'.symm.trans e
      obtain ⟨le, room⟩ | ⟨none, refused⟩ := served
      · exact promised_of_room ready held e mem same le room
      · exact promised_of_refused signed ready held e mem same none refused

/-- A break that is an address of a user, and not below where the heap begins. -/
abbrev UserBreak := { n : Nat // 4096 ≤ n ∧ n < 2 ^ 31 }

/-- An `sbrk` that also lowers the break. -/
def signedSbrk : Sbrk UserBreak where
  brk w := w.1
  call w amount :=
    if amount < 2 ^ 31 then
      if h : w.1 + amount < 2 ^ 31 then (⟨w.1 + amount, by omega, h⟩, w.1) else (w, minusOne)
    else if h : 4096 + (2 ^ 32 - amount) ≤ w.1 then (⟨w.1 - (2 ^ 32 - amount), by omega, by omega⟩, w.1)
    else (w, minusOne)
  moves w amount lt := by
    rw [if_pos lt]
    by_cases h : w.1 + amount < 2 ^ 31
    · rw [dif_pos h]
      exact .inl ⟨rfl, rfl⟩
    · rw [dif_neg h]
      exact .inr ⟨rfl, rfl⟩
  brk_pos w := by omega
  brk_lt w := by omega

/-- This `sbrk` takes its argument as a signed number. -/
lemma signedSbrk_signed : signedSbrk.Signed := by
  refine ⟨fun w amount le lt => ?_, fun w => ?_⟩
  · rw [signedSbrk]
    dsimp only
    rw [if_neg (not_lt.2 le)]
    by_cases h : 4096 + (2 ^ 32 - amount) ≤ w.1
    · rw [dif_pos h]
      exact .inl ⟨rfl, by dsimp only; omega⟩
    · rw [dif_neg h]
      exact .inr ⟨rfl, rfl⟩
  · have := w.2
    rw [signedSbrk, mblocksize]
    dsimp only
    omega

/-- Before the first call. -/
def noHeap : Client UserBreak := ⟨⟨fun _ => 0, 0, 0, ⟨4096, by decide⟩⟩, []⟩

/-- After `malloc(8)`. -/
def eightBytes : Client UserBreak :=
  ⟨⟨Mem.setHeader (fun _ => 0) 4096 ⟨0, 0, mmagic, 2, 1, mmagic⟩, 4096, 4112, ⟨4112, by decide⟩⟩, [(4104, 8)]⟩

/-- `malloc(2^32-1)` returns a pointer to nothing; `malloc(2^32-24)` lowers the break by `16`, and returns a pointer
behind it. -/
theorem malloc_breaks_promise :
    MallocReach signedSbrk (fun _ => 0) ⟨4096, by decide⟩ eightBytes ∧
      ¬ Promised signedSbrk noHeap (2 ^ 32 - 1) ∧ ¬ Promised signedSbrk eightBytes (2 ^ 32 - 24) := by
  refine ⟨?_, ?_, ?_⟩
  · exact @MallocReach.step _ _ _ _ _ _ (.malloc 8) .start ⟨by decide, by decide⟩ rfl
  · have run : malloc signedSbrk noHeap.proc (2 ^ 32 - 1) = .ok
        (⟨Mem.setHeader (fun _ => 0) 4096 ⟨0, 0, mmagic, 1, 1, mmagic⟩, 4096, 4104, ⟨4104, by decide⟩⟩, 4104) := rfl
    exact not_promised run (by decide) (by decide)
  · have run : malloc signedSbrk eightBytes.proc (2 ^ 32 - 24) = .ok
        (⟨eightBytes.proc.mem.setHeader 4112 ⟨2, 0, mmagic, 2 ^ 29 - 2, 1, mmagic⟩, 4096, 4096, ⟨4096, by decide⟩⟩,
          4120) := rfl
    exact not_promised run (by decide) (by decide)

/-- A request of `20` bytes is served. -/
theorem malloc_promised_twenty : Promised signedSbrk noHeap 20 := by
  have start : Held 0 signedSbrk noHeap [] := .start _ _
  exact (malloc_promised_iff signedSbrk_signed start 20).2 ⟨_, rfl, .inl ⟨by decide, .inr (by decide)⟩⟩

end PDS.Libc
