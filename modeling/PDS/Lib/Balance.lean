import Mathlib.Tactic

/-!
# Balanced use of a recursive lock

The functions of a program, as far as one recursive lock is concerned: `Cmd` keeps the acquires and releases, the calls,
the returns and the tests. A test may go either way, whatever came before it; a run has a trace of how its tests went, so
that a statement about all runs is one about all inputs. `Cmd.check` finds the level of the lock at each place. It can be
told of tests after which a release is missing (`slip`), and then finds everything else to be balanced (`Exec.depth_eq`).
-/

namespace Balance

/-- A recursive lock, as one thread sees it. -/
structure RLock where
  /-- the thread holds the lock -/
  held : Bool
  depth : Nat
deriving DecidableEq, Repr

/-- The thread has the lock for as long as the depth is not zero. -/
def RLock.Valid (l : RLock) : Prop := l.held = decide (0 < l.depth)

def RLock.acquire (l : RLock) : RLock := ⟨true, l.depth + 1⟩

/-- The lock is let go at depth zero; the depth was not zero before. -/
def RLock.release (l : RLock) : RLock := ⟨if l.depth - 1 = 0 then false else l.held, l.depth - 1⟩

/-- What a function does with the lock; `κ` are the tests. -/
inductive Cmd (κ : Type) where
  | skip
  | acquire
  | release
  | seq (a b : Cmd κ)
  | cond (k : κ) (a b : Cmd κ)
  | loop (k : κ) (body : Cmd κ)
  | ret
  /-- a return in the callee ends only the callee -/
  | call (body : Cmd κ)
  /-- the machine stops -/
  | panic

/-- How a command ends. -/
inductive Flow where
  | next
  | ret

variable {κ : Type}

/-- One command after the other. -/
def Cmd.block : List (Cmd κ) → Cmd κ
  | [] => .skip
  | c :: cs => .seq c (block cs)

/-- The runs of a command that end, with the trace of their tests. A lock is released by the thread that holds it. -/
inductive Exec : Cmd κ → RLock → List (κ × Bool) → RLock → Flow → Prop where
  | skip {l} : Exec .skip l [] l .next
  | acquire {l} : Exec .acquire l [] l.acquire .next
  | release {l} : l.held = true → 0 < l.depth → Exec .release l [] l.release .next
  | seq {a b l t l₁ t' l₂ f} : Exec a l t l₁ .next → Exec b l₁ t' l₂ f → Exec (.seq a b) l (t ++ t') l₂ f
  | seqRet {a b l t l₁} : Exec a l t l₁ .ret → Exec (.seq a b) l t l₁ .ret
  | condTrue {k a b l t l' f} : Exec a l t l' f → Exec (.cond k a b) l ((k, true) :: t) l' f
  | condFalse {k a b l t l' f} : Exec b l t l' f → Exec (.cond k a b) l ((k, false) :: t) l' f
  | loopEnd {k body l} : Exec (.loop k body) l [(k, false)] l .next
  | loopStep {k body l t l₁ t' l₂ f} : Exec body l t l₁ .next → Exec (.loop k body) l₁ t' l₂ f →
    Exec (.loop k body) l ((k, true) :: (t ++ t')) l₂ f
  | loopRet {k body l t l₁} : Exec body l t l₁ .ret → Exec (.loop k body) l ((k, true) :: t) l₁ .ret
  | ret {l} : Exec .ret l [] l .ret
  | call {body l t l' f} : Exec body l t l' f → Exec (.call body) l t l' .next

/-- The level at which two branches meet; a branch that does not end has none. -/
def join : Option Nat → Option Nat → Option (Option Nat)
  | none, y => some y
  | x, none => some x
  | some a, some b => if a = b then some (some a) else none

/-- The level of the lock after a command that starts at level `n`; it is `none` if the levels do not fit together, and
`some none` if the command does not go on. After a test, `slip` releases are missing. -/
def Cmd.check (slip : κ × Bool → Nat) : Cmd κ → Nat → Option (Option Nat)
  | skip, n => some (some n)
  | acquire, n => some (some (n + 1))
  | release, n => if n = 0 then none else some (some (n - 1))
  | seq a b, n =>
    match check slip a n with
    | none => none
    | some none => some none
    | some (some m) => check slip b m
  | cond k a b, n =>
    if slip (k, true) ≤ n ∧ slip (k, false) ≤ n then
      match check slip a (n - slip (k, true)), check slip b (n - slip (k, false)) with
      | some x, some y => join x y
      | _, _ => none
    else none
  | loop k body, n =>
    if slip (k, true) = 0 ∧ slip (k, false) = 0 then
      match check slip body n with
      | none => none
      | some none => some (some n)
      | some (some m) => if m = n then some (some n) else none
    else none
  | ret, n => if n = 0 then some none else none
  | call body, n =>
    match check slip body 0 with
    | none => none
    | some none => some (some n)
    | some (some m) => if m = 0 then some (some n) else none
  | panic, _ => some none

/-- A function that releases the lock as often as it acquires it. -/
def Cmd.Balanced (slip : κ × Bool → Nat) (c : Cmd κ) : Prop :=
  c.check slip 0 = some none ∨ c.check slip 0 = some (some 0)

instance (slip : κ × Bool → Nat) (c : Cmd κ) : Decidable (c.Balanced slip) := inferInstanceAs (Decidable (_ ∨ _))

/-- The number of releases that are missing in a run. -/
def slips (slip : κ × Bool → Nat) (t : List (κ × Bool)) : Nat := (t.map slip).sum

/-- The slips of two traces add up. -/
lemma slips_append (slip : κ × Bool → Nat) (t t' : List (κ × Bool)) :
    slips slip (t ++ t') = slips slip t + slips slip t' := by
  rw [slips, slips, slips, List.map_append, List.sum_append]

/-- The slips of a trace from its first step on. -/
lemma slips_cons (slip : κ × Bool → Nat) (d : κ × Bool) (t : List (κ × Bool)) :
    slips slip (d :: t) = slip d + slips slip t := by
  rw [slips, slips, List.map_cons, List.sum_cons]

/-- The depth after a command that starts at level `n`: the level that has been found if it goes on, and none of its own
if it returns, and the releases that are missing. -/
def DepthEq (n : Nat) (x : Option Nat) (l l' : RLock) (missing : Nat) : Flow → Prop
  | .next => ∃ m, x = some m ∧ l'.depth + n = l.depth + m + missing
  | .ret => l'.depth + n = l.depth + missing

/-- The depth after a branch is that of its first case. -/
lemma DepthEq.join_left {n : Nat} {x y z : Option Nat} {l l' : RLock} {missing : Nat} {f : Flow}
    (h : DepthEq n x l l' missing f) (j : join x y = some z) : DepthEq n z l l' missing f := by
  cases f with
  | ret => exact h
  | next =>
    obtain ⟨m, rfl, eq⟩ := h
    cases y with
    | none =>
      cases j
      exact ⟨m, rfl, eq⟩
    | some b =>
      rw [join] at j
      split at j
      · cases j
        exact ⟨m, rfl, eq⟩
      · cases j

/-- The depth after a branch is that of its second case. -/
lemma DepthEq.join_right {n : Nat} {x y z : Option Nat} {l l' : RLock} {missing : Nat} {f : Flow}
    (h : DepthEq n y l l' missing f) (j : join x y = some z) : DepthEq n z l l' missing f := by
  cases f with
  | ret => exact h
  | next =>
    obtain ⟨m, rfl, eq⟩ := h
    cases x with
    | none =>
      cases j
      exact ⟨m, rfl, eq⟩
    | some a =>
      rw [join] at j
      split at j
      next same =>
        cases j
        exact ⟨a, rfl, same ▸ eq⟩
      · cases j

/-- What comes after a test at which releases are missing. -/
lemma DepthEq.slip {n s : Nat} {x : Option Nat} {l l' : RLock} {missing : Nat} {f : Flow}
    (h : DepthEq (n - s) x l l' missing f) (le : s ≤ n) : DepthEq n x l l' (s + missing) f := by
  cases f with
  | ret =>
    change l'.depth + (n - s) = l.depth + missing at h
    change l'.depth + n = l.depth + (s + missing)
    omega
  | next =>
    obtain ⟨m, rfl, eq⟩ := h
    refine ⟨m, rfl, ?_⟩
    omega

/-- One command after the other. -/
lemma DepthEq.trans {n m : Nat} {x : Option Nat} {l l₁ l₂ : RLock} {missing missing' : Nat} {f : Flow}
    (h : l₁.depth + n = l.depth + m + missing) (h' : DepthEq m x l₁ l₂ missing' f) :
    DepthEq n x l l₂ (missing + missing') f := by
  cases f with
  | ret =>
    change l₂.depth + m = l₁.depth + missing' at h'
    change l₂.depth + n = l.depth + (missing + missing')
    omega
  | next =>
    obtain ⟨m', rfl, eq⟩ := h'
    refine ⟨m', rfl, ?_⟩
    omega

section

variable {slip : κ × Bool → Nat} {c : Cmd κ} {l l' : RLock} {t : List (κ × Bool)} {f : Flow}

/-- What the check finds is the depth of the lock. -/
lemma Exec.depth_eq (run : Exec c l t l' f) {n : Nat} {x : Option Nat} (checked : c.check slip n = some x) :
    DepthEq n x l l' (slips slip t) f := by
  induction run generalizing n x with
  | skip =>
    cases checked
    exact ⟨n, rfl, rfl⟩
  | acquire =>
    cases checked
    refine ⟨n + 1, rfl, ?_⟩
    change _ + 1 + n = _ + (n + 1) + 0
    omega
  | @release l held pos =>
    rw [Cmd.check] at checked
    split at checked
    · cases checked
    · cases checked
      refine ⟨n - 1, rfl, ?_⟩
      change l.depth - 1 + n = l.depth + (n - 1) + 0
      omega
  | @seq a b _ _ _ _ _ _ _ _ iha ihb =>
    rw [Cmd.check] at checked
    rw [slips_append]
    cases ha : a.check slip n with
    | none =>
      rw [ha] at checked
      cases checked
    | some y =>
      rw [ha] at checked
      obtain ⟨m, rfl, eq⟩ := iha ha
      exact DepthEq.trans eq (ihb checked)
  | @seqRet a b _ _ _ _ iha =>
    rw [Cmd.check] at checked
    cases ha : a.check slip n with
    | none =>
      rw [ha] at checked
      cases checked
    | some y =>
      have eq : DepthEq n y _ _ _ _ := iha ha
      exact eq
  | @condTrue k a b _ _ _ _ _ iha =>
    rw [Cmd.check] at checked
    rw [slips_cons]
    split at checked
    next fits =>
      split at checked
      next ha hb => exact ((iha ha).slip fits.1).join_left checked
      next => cases checked
    next => cases checked
  | @condFalse k a b _ _ _ _ _ ihb =>
    rw [Cmd.check] at checked
    rw [slips_cons]
    split at checked
    next fits =>
      split at checked
      next ha hb => exact ((ihb hb).slip fits.2).join_right checked
      next => cases checked
    next => cases checked
  | @loopEnd k body l =>
    rw [Cmd.check] at checked
    split at checked
    next none_ =>
      have level : x = some n := by
        split at checked
        next => cases checked
        next =>
          cases checked
          rfl
        next =>
          split at checked
          · cases checked
            rfl
          · cases checked
      refine ⟨n, level, ?_⟩
      rw [slips_cons, none_.2]
      rfl
    next => cases checked
  | @loopStep k body _ _ _ _ _ _ _ _ iha ihb =>
    have again := ihb checked
    rw [Cmd.check] at checked
    split at checked
    next none_ =>
      rw [slips_cons, none_.1, slips_append, zero_add]
      cases hb : body.check slip n with
      | none =>
        rw [hb] at checked
        cases checked
      | some y =>
        rw [hb] at checked
        obtain ⟨m, rfl, eq⟩ := iha hb
        dsimp only at checked
        split at checked
        next same =>
          subst same
          exact DepthEq.trans eq again
        next => cases checked
    next => cases checked
  | @loopRet k body _ _ _ _ iha =>
    rw [Cmd.check] at checked
    split at checked
    next none_ =>
      rw [slips_cons, none_.1, zero_add]
      cases hb : body.check slip n with
      | none =>
        rw [hb] at checked
        cases checked
      | some y =>
        have eq : DepthEq n y _ _ _ _ := iha hb
        exact eq
    next => cases checked
  | ret =>
    rw [Cmd.check] at checked
    split at checked
    next zero =>
      subst zero
      exact rfl
    next => cases checked
  | @call body _ _ _ f _ ih =>
    rw [Cmd.check] at checked
    cases hb : body.check slip 0 with
    | none =>
      rw [hb] at checked
      cases checked
    | some y =>
      have inside := ih hb
      rw [hb] at checked
      cases f with
      | ret =>
        change _ + 0 = _ + _ at inside
        have level : x = some n := by
          cases y with
          | none =>
            cases checked
            rfl
          | some m =>
            dsimp only at checked
            split at checked
            · cases checked
              rfl
            · cases checked
        exact ⟨n, level, by omega⟩
      | next =>
        obtain ⟨m, rfl, eq⟩ := inside
        dsimp only at checked
        split at checked
        next zero =>
          cases checked
          exact ⟨n, rfl, by omega⟩
        next => cases checked

/-- The thread has the lock at a depth that is not zero, and only then. -/
lemma Exec.valid (run : Exec c l t l' f) (valid : l.Valid) : l'.Valid := by
  induction run with
  | acquire => exact (decide_eq_true (Nat.succ_pos _)).symm
  | @release l held pos =>
    change (if l.depth - 1 = 0 then false else l.held) = decide (0 < l.depth - 1)
    split
    next zero => rw [zero]; rfl
    next more => rw [held]; exact (decide_eq_true (Nat.pos_of_ne_zero more)).symm
  | seq _ _ iha ihb => exact ihb (iha valid)
  | seqRet _ ih => exact ih valid
  | condTrue _ ih => exact ih valid
  | condFalse _ ih => exact ih valid
  | loopStep _ _ iha ihb => exact ihb (iha valid)
  | loopRet _ ih => exact ih valid
  | call _ ih => exact ih valid
  | _ => exact valid

/-- A balanced function leaves the lock as it was, but for the releases that are missing. -/
lemma Exec.balanced (run : Exec c l t l' f) (balanced : c.Balanced slip) : l'.depth = l.depth + slips slip t := by
  obtain checked | checked := balanced
  · have eq := run.depth_eq checked
    cases f with
    | ret => exact eq
    | next =>
      obtain ⟨m, no, -⟩ := eq
      cases no
  · have eq := run.depth_eq checked
    cases f with
    | ret => exact eq
    | next =>
      obtain ⟨m, same, eq⟩ := eq
      cases same
      exact eq

/-- A trace has no slips if none of its steps is one. -/
lemma slips_eq_zero_iff : slips slip t = 0 ↔ ∀ d ∈ t, slip d = 0 := by
  rw [slips, List.sum_eq_zero_iff, List.forall_mem_map]

end

end Balance
