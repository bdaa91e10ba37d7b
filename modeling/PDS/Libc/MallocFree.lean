import PDS.Libc.MallocRun

/-!
# What `free` takes

`free` tells pointers by their range, by the magic values of the header and by its in-use bit. In every run of a program
what is live can be freed, but for a block without data at the top of the heap: its pointer is `__heaptop`, which `free`
takes to be out of range (`free_returns_iff`).
-/

namespace PDS.Libc
open Word Tags

variable {W : Type} {sb : Sbrk W} {c c' c₁ c₂ : Client W} {l : List Piece} {x size : Nat}

/-- The states that a program reaches that also asks for zero bytes. -/
inductive PermittedReach (sb : Sbrk W) (mem : Mem) (w : W) : Client W → Prop where
  | start : PermittedReach sb mem w ⟨⟨mem, 0, 0, w⟩, []⟩
  | step {c c' : Client W} {op : MallocOp} : PermittedReach sb mem w c → op.Permitted c → op.step sb c = .ok c' →
    PermittedReach sb mem w c'

/-- What is held in every heap that the calls make, `malloc(0)` among them. -/
lemma Held.permitted {mem : Mem} {w : W} (r : PermittedReach sb mem w c) : ∃ l, Held 0 sb c l := by
  induction r with
  | start => exact ⟨[], .start mem w⟩
  | step _ permitted e ih =>
    obtain ⟨l, h⟩ := ih
    exact h.step (Nat.zero_le _) permitted (fun _ _ => Nat.zero_le _) e

/-- A program that asks for positive sizes is one of them. -/
lemma MallocReach.permitted {mem : Mem} {w : W} (r : MallocReach sb mem w c) : PermittedReach sb mem w c := by
  induction r with
  | start => exact .start
  | step _ allowed e ih => exact .step ih allowed.permitted e

/-- The block of `x` has no data, and it is the last of the heap. -/
def EmptyLast (s : Process W) (x : Nat) : Prop := (s.mem.header (x - mblocksize)).size = 0 ∧ x = s.heaptop

/-- `free` returns, and then the block of `x` is free. -/
def Returned (s : Process W) (x : Nat) : Prop :=
  ∃ s' l, free s x = .ok s' ∧ Row 0 s'.mem s'.heapbase s'.heaptop l ∧
    Freed s'.mem s'.heapbase l (x - mblocksize) (s.mem.header (x - mblocksize)).nextoff

/-- In every state that a program reaches, `free` takes a pointer that is live and frees its block, unless the block has
no data and is the last of the heap. -/
theorem free_returns_iff {mem : Mem} {w : W} (r : PermittedReach sb mem w c) (live : (x, size) ∈ c.live) :
    Returned c.proc x ↔ ¬ EmptyLast c.proc x := by
  obtain ⟨l, h⟩ := Held.permitted r
  obtain ⟨y, n, eq, at_, -⟩ := h.owned _ live
  have eight : mblocksize = 8 := rfl
  have stop := h.blocks.stop
  have within := at_.within
  dsimp only at eq within
  have place : x - mblocksize = y := by omega
  obtain ⟨p, q, rfl, start⟩ := at_.split
  have tag := h.blocks.tag
  rw [← start] at tag
  have size := tag.size (h.blocks.place.2.2.trans' (Nat.le_add_right _ _))
  have next := tag.nextoff
  dsimp only at size next
  rw [Returned, EmptyLast, place, size, next]
  constructor
  · rintro ⟨s', l', e, -, -⟩ ⟨-, top⟩
    have inside := @free_inside _ sb c ⟨s', c.live.filter (·.1 ≠ x)⟩ x
      (by rw [MallocOp.step, e]; rfl)
    exact inside.elim (fun null => by omega) fun ne => ne top
  · intro no
    have inside : x ≠ c.proc.heaptop := fun top => no ⟨by omega, top⟩
    obtain ⟨m, l', y', n', eq', at', e, h', -, freed, -⟩ := h.free_spec live inside
    obtain rfl : y' = y := by omega
    obtain rfl : n' = n := by
      obtain ⟨-, same⟩ | apart := at'.apart at_
      · exact congrArg Piece.size same
      · have := h.blocks.sized _ at'.mem
        have := h.blocks.sized _ at_.mem
        dsimp only at *
        omega
    exact ⟨_, l', e, h'.blocks, freed⟩

/-- After `malloc(0)`. -/
def emptyBlock : Client Break :=
  ⟨⟨Mem.setHeader (fun _ => 0) 4096 ⟨0, 0, mmagic, 1, 1, mmagic⟩, 4096, 4104, ⟨4104, by decide⟩⟩, [(4104, 0)]⟩

/-- The heap with an empty block comes of a call. -/
lemma emptyBlock_reached : PermittedReach boundedSbrk (fun _ => 0) ⟨4096, by decide⟩ emptyBlock :=
  @PermittedReach.step _ _ _ _ _ _ (.malloc 0) .start (Nat.zero_le _) rfl

/-- A block without data at the top of the heap cannot be freed. -/
theorem free_refuses_empty :
    PermittedReach boundedSbrk (fun _ => 0) ⟨4096, by decide⟩ emptyBlock ∧ (4104, 0) ∈ emptyBlock.live ∧
      free emptyBlock.proc 4104 = .error (.errx "free: Invalid pointer %p freed (out of range)") ∧
      ¬ Returned emptyBlock.proc 4104 := by
  have refused : free emptyBlock.proc 4104 = .error (.errx "free: Invalid pointer %p freed (out of range)") := rfl
  refine ⟨emptyBlock_reached, by decide, refused, ?_⟩
  rintro ⟨s', l, e, -⟩
  rw [refused] at e
  cases e

/-- After `malloc(8)` as well. -/
def emptyBelow : Client Break :=
  ⟨⟨emptyBlock.proc.mem.setHeader 4104 ⟨1, 0, mmagic, 2, 1, mmagic⟩, 4096, 4120, ⟨4120, by decide⟩⟩,
    [(4112, 8), (4104, 0)]⟩

/-- A block of no bytes below another one can be freed. -/
theorem free_returns_below : Returned emptyBelow.proc 4104 := by
  have reached : PermittedReach boundedSbrk (fun _ => 0) ⟨4096, by decide⟩ emptyBelow :=
    @PermittedReach.step _ _ _ _ _ _ (.malloc 8) emptyBlock_reached (show 8 ≤ 2 ^ 31 - 16 by decide) rfl
  exact (free_returns_iff reached (show (4104, 0) ∈ emptyBelow.live by decide)).2 fun last => absurd last.2 (by decide)

end PDS.Libc
