import PDS.Kern.UserMem

/-!
# The check of user memory

Port of `copyin` in `kern/vm/copyinout.c`; `copycheck` and `copyout` are in `UserMem`. The comment of `copycheck` says
what it is for: a region outside user memory is refused, and `stoplen` differs from the length if and only if the region
overlaps the kernel. The last byte of a region is computed as `bot+len-1`, so this is what happens for regions that have
a last byte (`copycheck_contract_iff`).
-/

namespace PDS.Kern
open Word

/-- The loop of `memcpy` from a user address: the bytes that have been read, and whether all accesses succeeded. -/
def Mach.loadBytes (m : Mach) (vaddr : Nat) : Nat → Except Halt (Mach × List UInt8 × Bool)
  | 0 => .ok (m, [], true)
  | n + 1 => do
    match ← m.load vaddr with
    | (m, none) => .ok (m, [], false)
    | (m, some b) => do
      let (m, bs, ok) ← m.loadBytes (wadd 32 vaddr 1) n
      .ok (m, b :: bs, ok)

/-- Copies bytes from user memory; the bytes are those that `dest` has received (C `copyin`). -/
def copyin (m : Mach) (usersrc len : Nat) : Except Halt (Mach × List UInt8 × Nat) :=
  let check := copycheck usersrc len
  if check.2 ≠ 0 then .ok (m, [], check.2)
  -- "Single block, can't legally truncate it."
  else if check.1 ≠ len then .ok (m, [], efault)
  else do
    let (m, bytes, ok) ← m.loadBytes usersrc len
    .ok (m, bytes, if ok then 0 else efault)

/-- The region lies entirely in user memory. -/
def InUserspace (userptr len : Nat) : Prop := userptr < userspaceTop ∧ userptr + len ≤ userspaceTop

instance (userptr len : Nat) : Decidable (InUserspace userptr len) := inferInstanceAs (Decidable (_ ∧ _))

/-- What `copycheck` is for, in exact integers: it refuses regions that wrap around and regions that begin in the
kernel, and `stoplen` is as much of the others as is user memory. The copies are made of regions in user memory, and the
others are refused before anything is read or written. -/
structure CopycheckContract (userptr len : Nat) : Prop where
  accepts : (copycheck userptr len).2 = 0 ↔ userptr + len ≤ 2 ^ 32 ∧ userptr < userspaceTop
  refuses : (copycheck userptr len).2 ≠ 0 → (copycheck userptr len).2 = efault
  stoplen : (copycheck userptr len).2 = 0 → (copycheck userptr len).1 = min len (userspaceTop - userptr)
  overlaps : (copycheck userptr len).2 = 0 → ((copycheck userptr len).1 ≠ len ↔ userspaceTop < userptr + len)
  copyin : ∀ m, copyin m userptr len =
    if InUserspace userptr len then do
      let (m, bytes, ok) ← m.loadBytes userptr len
      .ok (m, bytes, if ok then 0 else efault)
    else .ok (m, [], efault)
  copyout : ∀ m src, src.length = len → copyout m src userptr =
    if InUserspace userptr len then do
      let (m, ok) ← m.storeBytes userptr src
      .ok (m, if ok then 0 else efault)
    else .ok (m, efault)

section

variable {userptr len : Nat}

/-- The address of the last byte of a region that has one. -/
lemma copycheck_top (pos : 0 < len) (lt : userptr < 2 ^ 32) (small : len < 2 ^ 32) :
    wsub 32 (wadd 32 userptr len) 1 =
      if userptr + len ≤ 2 ^ 32 then userptr + len - 1 else userptr + len - 1 - 2 ^ 32 := by
  rw [wsub, wadd]
  split_ifs <;> omega

/-- What the check does with a region that has a last byte. -/
lemma copycheck_of_pos (pos : 0 < len) (lt : userptr < 2 ^ 32) (small : len < 2 ^ 32) :
    copycheck userptr len =
      if userptr + len ≤ 2 ^ 32 ∧ userptr < userspaceTop then (min len (userspaceTop - userptr), 0)
      else (len, efault) := by
  have top : userspaceTop = 2 ^ 31 := rfl
  rw [copycheck, copycheck_top pos lt small]
  by_cases fits : userptr + len ≤ 2 ^ 32
  · rw [if_pos fits, if_neg (show ¬ userptr + len - 1 < userptr by omega)]
    by_cases user : userptr < userspaceTop
    · rw [if_neg (Nat.not_le_of_lt user), if_pos (And.intro fits user), wsub_of_le user.le (by decide)]
      by_cases beyond : userptr + len - 1 ≥ userspaceTop
      · rw [if_pos beyond, min_eq_right (by omega)]
      · rw [if_neg beyond, min_eq_left (by omega)]
    · rw [if_pos (Nat.le_of_not_lt user), if_neg (not_and_of_not_right _ user)]
  · rw [if_neg fits, if_pos (show userptr + len - 1 - 2 ^ 32 < userptr by omega), if_neg (not_and_of_not_left _ fits)]

/-- A region with which the check does what it is for. -/
lemma contract_of_check (lt : userptr < 2 ^ 32)
    (check : copycheck userptr len =
      if userptr + len ≤ 2 ^ 32 ∧ userptr < userspaceTop then (min len (userspaceTop - userptr), 0)
      else (len, efault)) : CopycheckContract userptr len := by
  have top : userspaceTop = 2 ^ 31 := rfl
  have bad : efault ≠ 0 := by decide
  by_cases accepted : userptr + len ≤ 2 ^ 32 ∧ userptr < userspaceTop
  · rw [if_pos accepted] at check
    have whole : min len (userspaceTop - userptr) ≠ len ↔ ¬ InUserspace userptr len := by
      rw [InUserspace]
      omega
    refine ⟨?_, ?_, ?_, ?_, ?_, ?_⟩
    · rw [check]
      exact iff_of_true rfl accepted
    · rw [check]
      exact fun no => absurd rfl no
    · rw [check]
      exact fun _ => rfl
    · rw [check]
      dsimp only
      omega
    · intro m
      rw [Kern.copyin, check]
      dsimp only
      rw [if_neg (not_not.2 rfl)]
      by_cases inside : InUserspace userptr len
      · rw [if_pos inside, if_neg (fun cut => whole.1 cut inside)]
      · rw [if_neg inside, if_pos (whole.2 inside)]
    · intro m src length
      rw [Kern.copyout, length, check]
      dsimp only
      rw [if_neg (not_not.2 rfl)]
      by_cases inside : InUserspace userptr len
      · rw [if_pos inside, if_neg (fun cut => whole.1 cut inside)]
      · rw [if_neg inside, if_pos (whole.2 inside)]
  · rw [if_neg accepted] at check
    have outside : ¬ InUserspace userptr len := by
      rw [InUserspace]
      omega
    refine ⟨?_, ?_, ?_, ?_, ?_, ?_⟩
    · rw [check]
      exact iff_of_false bad accepted
    · rw [check]
      exact fun _ => rfl
    · rw [check]
      exact fun no => absurd no bad
    · rw [check]
      exact fun no => absurd no bad
    · intro m
      rw [Kern.copyin, check, if_pos bad, if_neg outside]
    · intro m src length
      rw [Kern.copyout, length, check, if_pos bad, if_neg outside]

end

/-- `copycheck` meets its contract for every region but an empty one in user memory. -/
theorem copycheck_contract_iff (userptr len : UInt32) :
    CopycheckContract userptr.toNat len.toNat ↔ 0 < len.toNat ∨ userspaceTop ≤ userptr.toNat := by
  have lt := userptr.toNat_lt
  have small := len.toNat_lt
  generalize userptr.toNat = userptr at lt
  generalize len.toNat = len at small
  have top : userspaceTop = 2 ^ 31 := rfl
  constructor
  · intro contract
    by_contra empty
    obtain ⟨rfl, user⟩ : len = 0 ∧ userptr < userspaceTop := by omega
    -- the last byte is before the region, or at the end of the address space
    have accepted := contract.accepts.2 ⟨by omega, user⟩
    have stoplen := contract.stoplen accepted
    obtain rfl | pos := Nat.eq_zero_or_pos userptr
    · revert stoplen
      decide
    · have last : wsub 32 (wadd 32 userptr 0) 1 = userptr - 1 := by
        rw [wsub, wadd]
        omega
      rw [copycheck, last, if_pos (by omega)] at accepted
      revert accepted
      decide
  · rintro (pos | kernel)
    · exact contract_of_check lt (copycheck_of_pos pos lt small)
    · obtain rfl | pos := Nat.eq_zero_or_pos len
      · refine contract_of_check lt ?_
        have last : wsub 32 (wadd 32 userptr 0) 1 = userptr - 1 := by
          rw [wsub, wadd]
          omega
        rw [copycheck, last, if_pos (by omega), if_neg (by omega)]
      · exact contract_of_check lt (copycheck_of_pos pos lt small)

/-- An empty region in user memory is refused. -/
theorem copycheck_refuses_empty : copycheck 4096 0 = (0, efault) ∧ ¬ CopycheckContract 4096 0 := by
  refine ⟨rfl, fun contract => ?_⟩
  have accepted := contract.accepts.2 (by decide)
  revert accepted
  decide

end PDS.Kern
