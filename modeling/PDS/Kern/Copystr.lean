import PDS.Kern.Copyinout
import PDS.Lib.Prog

/-!
# Copying strings between user memory and the kernel

Port of `copystr`, `copyinstr` and `copyoutstr` in `kern/vm/copyinout.c`. User memory and the buffer of the kernel are
separate memories. An access to a user address may end in a page fault that cannot be handled (`faults`): the thread
goes on in `copyfail` then if `tm_badfaultfunc` says so, which jumps back to the `setjmp` of the caller, and the kernel
stops otherwise. A jump is an error of the command.

Two limits end the loop of `copystr`, and which of them is the smaller one decides about the error code
(`copystr_contract`).
-/

namespace PDS.Kern
open Word

/-- String too long (C `ENAMETOOLONG`). -/
def enametoolong : Nat := 7

/-- The two sides of a copy. -/
inductive Side where
  | user
  | kernel
deriving DecidableEq, Repr

/-- The memory, and what the copying of strings uses of a thread. -/
structure StrMem where
  mem : Side → Nat → UInt8
  /-- `curthread->t_machdep.tm_badfaultfunc` is `copyfail`, and `NULL` otherwise -/
  badfaultfunc : Bool
  /-- the user addresses that have been accessed -/
  touched : List Nat
  /-- `*actual` -/
  actual : Nat

/-- A command; its error is `longjmp`. -/
abbrev CopyM := Prog Halt Unit StrMem

/-- A `char *`: an address in user memory, or the buffer of the kernel. -/
inductive CharPtr where
  | user (addr : Nat)
  | kernel
deriving DecidableEq, Repr

/-- The memory that a pointer points into. -/
def CharPtr.side : CharPtr → Side
  | .user _ => .user
  | .kernel => .kernel

/-- The place of a character. -/
def CharPtr.place : CharPtr → Nat → Nat
  | .user addr, i => wadd 32 addr i
  | .kernel, i => i

section

variable (faults : Nat → Bool)

/-- A character is accessed. -/
def touch (p : CharPtr) (i : Nat) : CopyM Unit :=
  match p with
  | .kernel => pure ()
  | .user addr => do
    Prog.modify fun s => { s with touched := wadd 32 addr i :: s.touched }
    let s ← Prog.get
    if faults (wadd 32 addr i) then if s.badfaultfunc then Prog.fail () else Prog.halt fatalFault
    else pure ()

/-- `p[i]`. -/
def loadChar (p : CharPtr) (i : Nat) : CopyM UInt8 := do
  touch faults p i
  let s ← Prog.get
  pure (s.mem p.side (p.place i))

/-- `p[i] = c`. -/
def storeChar (p : CharPtr) (i : Nat) (c : UInt8) : CopyM Unit := do
  touch faults p i
  Prog.modify fun s =>
    { s with mem := Function.update s.mem p.side (Function.update (s.mem p.side) (p.place i) c) }

/-- `dest[i] = src[i]`, and `src[i]` for the comparison. -/
def copyChar (dest src : CharPtr) (i : Nat) : CopyM UInt8 := do
  let c ← loadChar faults src i
  storeChar faults dest i c
  loadChar faults src i

/-- The loop of `copystr`. `gotlen` says whether there is a place for the length. -/
def copystrLoop (dest src : CharPtr) (maxlen stoplen : Nat) (gotlen : Bool) : Nat → Nat → CopyM Nat
  | 0, _ => Prog.halt .spin
  | fuel + 1, i =>
    if i < maxlen ∧ i < stoplen then do
      let c ← copyChar faults dest src i
      if c = 0 then do
        Prog.when gotlen (Prog.modify fun s => { s with actual := wadd 32 i 1 })
        pure 0
      else copystrLoop dest src maxlen stoplen gotlen fuel (i + 1)
    -- "ran into user-kernel boundary"
    else if stoplen < maxlen then pure efault
    -- "otherwise just ran out of space"
    else pure enametoolong

/-- Common string copying function (C `copystr`). -/
def copystr (dest src : CharPtr) (maxlen stoplen : Nat) (gotlen : Bool) : CopyM Nat :=
  copystrLoop faults dest src maxlen stoplen gotlen (maxlen + 1) 0

/-- What is returned behind the `setjmp`. -/
def copyResult : Except Unit Nat → Nat
  | .error () => efault
  | .ok result => result

/-- A copy with the user address `userptr` on one of its sides, with `copyfail` against the faults of the user
addresses. -/
def copyStrWith (dest src : CharPtr) (userptr len : Nat) (actual : Bool) : CopyM Nat :=
  let check := copycheck userptr len
  if check.2 ≠ 0 then pure check.2
  else do
    Prog.modify fun s => { s with badfaultfunc := true }
    let result ← Prog.attempt (copystr faults dest src len check.1 actual)
    Prog.modify fun s => { s with badfaultfunc := false }
    pure (copyResult result)

/-- Copies a string from user memory to the buffer of the kernel (C `copyinstr`). -/
def copyinstr (usersrc len : Nat) (actual : Bool) : CopyM Nat :=
  copyStrWith faults .kernel (.user usersrc) usersrc len actual

/-- Copies a string from the buffer of the kernel to user memory (C `copyoutstr`). -/
def copyoutstr (userdest len : Nat) (actual : Bool) : CopyM Nat :=
  copyStrWith faults (.user userdest) .kernel userdest len actual

end

/-- The states of a thread between calls: it is created with `tm_badfaultfunc` set to `NULL`, and the memory changes in
any way between the calls. -/
inductive StrReach : StrMem → Prop where
  | start {s : StrMem} : s.badfaultfunc = false → StrReach s
  | copyinstr {s s' : StrMem} {faults : Nat → Bool} {usersrc len : Nat} {actual : Bool} {r : Except Unit Nat} :
      StrReach s → copyinstr faults usersrc len actual s = .ok (r, s') → StrReach s'
  | copyoutstr {s s' : StrMem} {faults : Nat → Bool} {userdest len : Nat} {actual : Bool} {r : Except Unit Nat} :
      StrReach s → copyoutstr faults userdest len actual s = .ok (r, s') → StrReach s'
  | change {s : StrMem} {mem : Side → Nat → UInt8} {touched : List Nat} {n : Nat} :
      StrReach s → StrReach { s with mem := mem, touched := touched, actual := n }

/-- The region begins in user memory and does not wrap around. -/
def Starts (userptr len : Nat) : Prop := userptr < userspaceTop ∧ userptr + len ≤ 2 ^ 32

/-- How much of a region is user memory. -/
def userPart (userptr len : Nat) : Nat := min len (userspaceTop - userptr)

/-- The string ends with the character at `k`. -/
def EndsAt (str : Nat → UInt8) (k : Nat) : Prop := str k = 0 ∧ ∀ j < k, str j ≠ 0

/-- The first `n` characters of a string can be copied, and do not end it. -/
def Passes (faults : Nat → Bool) (userptr : Nat) (str : Nat → UInt8) (n : Nat) : Prop :=
  ∀ j < n, str j ≠ 0 ∧ faults (userptr + j) = false

/-- The first `n` characters of `str` have been copied to the place `base` of one side, and nothing else has changed. -/
structure StrCopied (side : Side) (base : Nat) (str : Nat → UInt8) (n : Nat) (s s' : StrMem) : Prop where
  dest : ∀ x, s'.mem side x = if base ≤ x ∧ x < base + n then str (x - base) else s.mem side x
  others : ∀ other, other ≠ side → s'.mem other = s.mem other

/-- What a copy of the string `str` is to do, where `userptr` is the user address on one of its sides and it goes to the
place `base` of `side`. -/
structure CopystrContract (faults : Nat → Bool) (userptr len : Nat) (actual : Bool) (side : Side) (base : Nat)
    (str : Nat → UInt8) (s s' : StrMem) (result : Nat) : Prop where
  zero : result = 0 ↔ Starts userptr len ∧ ∃ k < userPart userptr len, EndsAt str k ∧
    ∀ j ≤ k, faults (userptr + j) = false
  copied : result = 0 → ∀ k, EndsAt str k → StrCopied side base str (k + 1) s s' ∧
    s'.actual = if actual then k + 1 else s.actual
  refused : ¬ Starts userptr len → result = efault ∧ s' = s
  fault : Starts userptr len → ∀ k < userPart userptr len, Passes faults userptr str k →
    faults (userptr + k) = true → result = efault
  boundary : Starts userptr len → Passes faults userptr str (userPart userptr len) →
    userspaceTop - userptr < len → result = efault
  toolong : Starts userptr len → Passes faults userptr str (userPart userptr len) →
    len ≤ userspaceTop - userptr → result = enametoolong
  touched : ∀ a ∈ s'.touched, a ∈ s.touched ∨ userptr ≤ a ∧ a < userspaceTop
  badfaultfunc : s'.badfaultfunc = false

/-- Where a pointer points to. -/
def CharPtr.base : CharPtr → Nat
  | .user addr => addr
  | .kernel => 0

/-- The string that a pointer points to. -/
def CharPtr.str (s : StrMem) (p : CharPtr) (i : Nat) : UInt8 := s.mem p.side (p.base + i)

/-- A user address has been accessed. -/
def StrMem.touch (s : StrMem) (a : Nat) : StrMem := { s with touched := a :: s.touched }

/-- A character has been written. -/
def StrMem.put (s : StrMem) (side : Side) (x : Nat) (c : UInt8) : StrMem :=
  { s with mem := Function.update s.mem side (Function.update (s.mem side) x c) }

section

variable {faults : Nat → Bool} {userptr len i n maxlen stoplen fuel : Nat} {dest src : CharPtr} {gotlen actual : Bool}
  {s s₀ s' : StrMem} {str : Nat → UInt8} {c : UInt8}

/-- The copy goes from user memory to the kernel or the other way, and `userptr` is the user address. -/
inductive Across (userptr : Nat) : CharPtr → CharPtr → Prop where
  | copyin : Across userptr .kernel (.user userptr)
  | copyout : Across userptr (.user userptr) .kernel

/-- User addresses that have been accessed since `s₀` are among the first `n` of the string. -/
def Touched (userptr n : Nat) (s₀ s : StrMem) : Prop :=
  ∀ a ∈ s.touched, a ∈ s₀.touched ∨ userptr ≤ a ∧ a < userptr + n

/-- What is touched of a part is touched of the whole. -/
lemma Touched.mono {m : Nat} (h : Touched userptr n s₀ s) (le : n ≤ m) : Touched userptr m s₀ s := by
  intro a mem
  obtain old | ⟨ge, lt⟩ := h a mem
  · exact .inl old
  · exact .inr ⟨ge, by omega⟩

/-- One more of the first addresses. -/
lemma Touched.touch (h : Touched userptr n s₀ s) (lt : i < n) : Touched userptr n s₀ (s.touch (userptr + i)) := by
  intro a mem
  obtain rfl | old := List.mem_cons.1 mem
  · exact .inr ⟨Nat.le_add_right _ _, by omega⟩
  · exact h a old

/-- The state when the loop comes to the character `i`. -/
structure Copying (userptr : Nat) (dest src : CharPtr) (s₀ : StrMem) (i : Nat) (s : StrMem) : Prop where
  copied : StrCopied dest.side dest.base (src.str s₀) i s₀ s
  touched : Touched userptr i s₀ s
  badfaultfunc : s.badfaultfunc = true
  actual : s.actual = s₀.actual

/-- One more character has been copied. -/
lemma StrCopied.put {side : Side} {base : Nat} (h : StrCopied side base str i s₀ s) :
    StrCopied side base str (i + 1) s₀ (s.put side (base + i) (str i)) := by
  refine ⟨?_, ?_⟩
  · intro x
    rw [StrMem.put]
    dsimp only
    rw [Function.update_self]
    by_cases eq : x = base + i
    · subst eq
      rw [Function.update_self, if_pos (by omega), Nat.add_sub_cancel_left]
    · rw [Function.update_of_ne eq, h.dest]
      have same : base ≤ x ∧ x < base + i ↔ base ≤ x ∧ x < base + (i + 1) := by omega
      simp only [same]
  · intro other ne
    rw [StrMem.put]
    dsimp only
    rw [Function.update_of_ne ne]
    exact h.others other ne

/-- Source and destination are on different sides. -/
lemma Across.side_ne (h : Across userptr dest src) : src.side ≠ dest.side := by
  cases h with
  | copyin =>
    intro same
    cases same
  | copyout =>
    intro same
    cases same

/-- A fault at a user address is caught. -/
lemma touch_of_fault (bad : s.badfaultfunc = true) (fits : userptr + i < 2 ^ 32) (fault : faults (userptr + i) = true) :
    Kern.touch faults (.user userptr) i s = .ok (.error (), s.touch (userptr + i)) := by
  rw [Kern.touch, Prog.modify_andThen, Prog.get_andThen, wadd_of_lt fits, if_pos fault]
  dsimp only
  rw [if_pos bad]
  rfl

/-- A user address without a fault is touched. -/
lemma touch_of_not (fits : userptr + i < 2 ^ 32) (fault : faults (userptr + i) = false) :
    Kern.touch faults (.user userptr) i s = .ok (.ok (), s.touch (userptr + i)) := by
  rw [Kern.touch, Prog.modify_andThen, Prog.get_andThen, wadd_of_lt fits,
    if_neg (by rw [fault]; exact Bool.false_ne_true)]
  rfl

/-- A fault on the source ends the loop. -/
lemma loadChar_of_fault (bad : s.badfaultfunc = true) (fits : userptr + i < 2 ^ 32)
    (fault : faults (userptr + i) = true) :
    loadChar faults (.user userptr) i s = .ok (.error (), s.touch (userptr + i)) :=
  Prog.andThen_of_error (touch_of_fault bad fits fault)

/-- A character is read from the user. -/
lemma loadChar_of_not (fits : userptr + i < 2 ^ 32) (fault : faults (userptr + i) = false) :
    loadChar faults (.user userptr) i s = .ok (.ok (s.mem .user (userptr + i)), s.touch (userptr + i)) := by
  rw [loadChar, Prog.andThen_of_run (touch_of_not fits fault), Prog.get_andThen, CharPtr.place, wadd_of_lt fits]
  rfl

/-- A fault on the destination ends the loop. -/
lemma storeChar_of_fault (bad : s.badfaultfunc = true) (fits : userptr + i < 2 ^ 32)
    (fault : faults (userptr + i) = true) :
    storeChar faults (.user userptr) i c s = .ok (.error (), s.touch (userptr + i)) :=
  Prog.andThen_of_error (touch_of_fault bad fits fault)

/-- A character is written to the user. -/
lemma storeChar_of_not (fits : userptr + i < 2 ^ 32) (fault : faults (userptr + i) = false) :
    storeChar faults (.user userptr) i c s = .ok (.ok (), (s.touch (userptr + i)).put .user (userptr + i) c) := by
  rw [storeChar, Prog.andThen_of_run (touch_of_not fits fault), CharPtr.place, wadd_of_lt fits]
  rfl

/-- A character is read from the kernel. -/
lemma loadChar_kernel : loadChar faults .kernel i s = .ok (.ok (s.mem .kernel i), s) := rfl

/-- The access to user memory in the body of the loop ends in a fault. -/
lemma copyChar_of_fault (across : Across userptr dest src) (bad : s.badfaultfunc = true) (fits : userptr + i < 2 ^ 32)
    (fault : faults (userptr + i) = true) :
    copyChar faults dest src i s = .ok (.error (), s.touch (userptr + i)) := by
  cases across with
  | copyin => exact Prog.andThen_of_error (loadChar_of_fault bad fits fault)
  | copyout =>
    rw [copyChar, Prog.andThen_of_run loadChar_kernel]
    exact Prog.andThen_of_error (storeChar_of_fault bad fits fault)

/-- An access leaves everything as it is. -/
lemma StrCopied.touch {side : Side} {base a : Nat} (h : StrCopied side base str n s₀ s) :
    StrCopied side base str n s₀ (s.touch a) := ⟨h.dest, h.others⟩

/-- The body of the loop copies a character. -/
lemma copyChar_of_not (across : Across userptr dest src) (h : Copying userptr dest src s₀ i s)
    (fits : userptr + i < 2 ^ 32) (fault : faults (userptr + i) = false) :
    ∃ t, copyChar faults dest src i s = .ok (.ok (src.str s₀ i), t) ∧ Copying userptr dest src s₀ (i + 1) t := by
  have touched := h.touched.mono (Nat.le_succ i)
  have source : src.str s i = src.str s₀ i := congrFun (h.copied.others _ across.side_ne) _
  cases across with
  | copyin =>
    have put : StrCopied .kernel 0 _ (i + 1) s₀ (s.touch (userptr + i) |>.put .kernel (0 + i) _) := h.copied.touch.put
    refine ⟨_, ?_, put.touch, (touched.touch (Nat.lt_succ_self i)).touch (Nat.lt_succ_self i), h.badfaultfunc, h.actual⟩
    rw [copyChar, Prog.andThen_of_run (loadChar_of_not fits fault), ← source, Nat.zero_add]
    exact loadChar_of_not fits fault
  | copyout =>
    have put : StrCopied .user userptr _ (i + 1) s₀ (s.touch (userptr + i) |>.put .user (userptr + i) _) :=
      h.copied.touch.put
    refine ⟨_, ?_, put, touched.touch (Nat.lt_succ_self i), h.badfaultfunc, h.actual⟩
    have load : loadChar faults .kernel i s = .ok (.ok (CharPtr.kernel.str s₀ i), s) := by
      rw [← source, CharPtr.str, CharPtr.base, Nat.zero_add]
      rfl
    rw [copyChar, Prog.andThen_of_run load, Prog.andThen_of_run (storeChar_of_not fits fault), ← source, CharPtr.str,
      CharPtr.base, Nat.zero_add]
    rfl

/-- How the loop ends: with the end of the string, with the limit, or with a fault. -/
inductive CopyEnd (faults : Nat → Bool) (userptr maxlen stoplen : Nat) (gotlen : Bool) (dest src : CharPtr)
    (s₀ s : StrMem) : Except Unit Nat → Prop where
  | string {k : Nat} : k < min maxlen stoplen → Passes faults userptr (src.str s₀) k → faults (userptr + k) = false →
    src.str s₀ k = 0 → StrCopied dest.side dest.base (src.str s₀) (k + 1) s₀ s →
    s.actual = (if gotlen then k + 1 else s₀.actual) → CopyEnd _ _ _ _ _ _ _ _ _ (.ok 0)
  | limit : Passes faults userptr (src.str s₀) (min maxlen stoplen) →
    CopyEnd _ _ _ _ _ _ _ _ _ (.ok (if stoplen < maxlen then efault else enametoolong))
  | fault {k : Nat} : k < min maxlen stoplen → Passes faults userptr (src.str s₀) k → faults (userptr + k) = true →
    CopyEnd _ _ _ _ _ _ _ _ _ (.error ())

variable (faults maxlen stoplen gotlen fuel) in
/-- The loop from the character `i` on. -/
lemma copystrLoop_ends (across : Across userptr dest src) (h : Copying userptr dest src s₀ i s)
    (pass : Passes faults userptr (src.str s₀) i) (le : i ≤ min maxlen stoplen)
    (inside : userptr + min maxlen stoplen ≤ userspaceTop) (enough : maxlen < fuel + i) :
    ∃ r t, copystrLoop faults dest src maxlen stoplen gotlen fuel i s = .ok (r, t) ∧
      CopyEnd faults userptr maxlen stoplen gotlen dest src s₀ t r ∧
      Touched userptr (min maxlen stoplen) s₀ t ∧ t.badfaultfunc = true := by
  have top : userspaceTop = 2 ^ 31 := rfl
  induction fuel generalizing i s with
  | zero =>
    exfalso
    omega
  | succ fuel ih =>
    rw [copystrLoop]
    by_cases more : i < maxlen ∧ i < stoplen
    · have lt : i < min maxlen stoplen := lt_min more.1 more.2
      rw [if_pos more]
      cases fault : faults (userptr + i) with
      | true =>
        refine ⟨_, _, Prog.andThen_of_error (copyChar_of_fault across h.badfaultfunc (by omega) fault),
          .fault lt pass fault, ?_, h.badfaultfunc⟩
        exact (h.touched.mono le).touch lt
      | false =>
        obtain ⟨t, run, next⟩ := copyChar_of_not across h (by omega) fault
        rw [Prog.andThen_of_run run]
        by_cases zero : src.str s₀ i = 0
        · rw [if_pos zero]
          cases gotlen with
          | false =>
            exact ⟨_, _, rfl, .string lt pass fault zero next.copied next.actual, next.touched.mono lt,
              next.badfaultfunc⟩
          | true =>
            refine ⟨_, _, rfl, .string lt pass fault zero ⟨next.copied.dest, next.copied.others⟩ ?_,
              next.touched.mono lt, next.badfaultfunc⟩
            exact wadd_of_lt (by omega)
        · rw [if_neg zero]
          refine ih next ?_ lt (by omega)
          intro j below
          obtain before | rfl := Nat.lt_succ_iff_lt_or_eq.1 below
          · exact pass j before
          · exact ⟨zero, fault⟩
    · have done : i = min maxlen stoplen := by omega
      rw [if_neg more]
      refine ⟨.ok (if stoplen < maxlen then efault else enametoolong), s, ?_, .limit (done ▸ pass),
        h.touched.mono le, h.badfaultfunc⟩
      split_ifs <;> rfl

/-- The end of a string is where it is. -/
lemma EndsAt.unique {k k' : Nat} (h : EndsAt str k) (h' : EndsAt str k') : k = k' := by
  obtain lt | eq | gt := Nat.lt_trichotomy k k'
  · exact absurd h.1 (h'.2 k lt)
  · exact eq
  · exact absurd h'.1 (h.2 k' gt)

/-- Nothing is copied past the character where the copy stops. -/
lemma Passes.le {k : Nat} (pass : Passes faults userptr str n) (stop : str k = 0 ∨ faults (userptr + k) = true) :
    n ≤ k := by
  by_contra before
  obtain ⟨nonzero, fault⟩ := pass k (by omega)
  obtain zero | fault' := stop
  · exact nonzero zero
  · rw [fault] at fault'
    cases fault'

/-- A region that is not accepted is refused before anything is accessed. -/
lemma copyStrWith_of_not (pos : 0 < len) (lt : userptr < 2 ^ 32) (small : len < 2 ^ 32) (no : ¬ Starts userptr len) :
    copyStrWith faults dest src userptr len actual s = .ok (.ok efault, s) := by
  have check : copycheck userptr len = (len, efault) := by
    rw [copycheck_of_pos pos lt small, if_neg (fun yes => no yes.symm)]
  rw [copyStrWith, check]
  rfl

variable (faults actual s) in
/-- What a copy comes to. -/
lemma copyStrWith_ends (across : Across userptr dest src) (pos : 0 < len) (small : len < 2 ^ 32)
    (starts : Starts userptr len) :
    ∃ r t,
      copyStrWith faults dest src userptr len actual s = .ok (.ok (copyResult r), { t with badfaultfunc := false }) ∧
      CopyEnd faults userptr len (userPart userptr len) actual dest src s t r ∧
      Touched userptr (userPart userptr len) s t := by
  have below := starts.1
  have top : userspaceTop = 2 ^ 31 := rfl
  have most : min len (userPart userptr len) = userPart userptr len := by
    rw [userPart]
    omega
  have check : copycheck userptr len = (userPart userptr len, 0) := by
    rw [copycheck_of_pos pos (by omega) small, if_pos starts.symm, userPart]
  have begin : Copying userptr dest src s 0 { s with badfaultfunc := true } := by
    refine ⟨⟨?_, fun _ _ => rfl⟩, fun a mem => .inl mem, rfl, rfl⟩
    intro x
    rw [if_neg (by omega)]
  obtain ⟨r, t, run, ends, touched, -⟩ := copystrLoop_ends faults len (userPart userptr len) (len + 1) actual across begin
    (fun j no => absurd no (Nat.not_lt_zero j)) (Nat.zero_le _) (by rw [most, userPart]; omega) (by omega)
  rw [most] at touched
  refine ⟨r, t, ?_, ends, touched⟩
  rw [copyStrWith, check]
  dsimp only
  have attempt :
      Prog.attempt (copystr faults dest src len (userPart userptr len) actual) { s with badfaultfunc := true } =
        .ok (.ok r, t) := Prog.attempt_of_run run
  rw [if_neg (not_not.2 rfl), Prog.modify_andThen, Prog.andThen_of_run attempt]
  rfl

/-- What the end of the loop means for the caller. -/
lemma CopyEnd.contract {t : StrMem} {r : Except Unit Nat} (starts : Starts userptr len)
    (ends : CopyEnd faults userptr len (userPart userptr len) actual dest src s t r)
    (touched : Touched userptr (userPart userptr len) s t) :
    CopystrContract faults userptr len actual dest.side dest.base (src.str s) s { t with badfaultfunc := false }
      (copyResult r) := by
  have most : min len (userPart userptr len) = userPart userptr len := by
    rw [userPart]
    omega
  have bound : userptr + userPart userptr len ≤ userspaceTop := by
    have below := starts.1
    rw [userPart]
    omega
  have inside : ∀ a ∈ t.touched, a ∈ s.touched ∨ userptr ≤ a ∧ a < userspaceTop := fun a mem =>
    (touched a mem).imp_right fun region => ⟨region.1, by omega⟩
  cases ends with
  | @string k inK pass fault zero copied got =>
    rw [most] at inK
    have ends : EndsAt (src.str s) k := ⟨zero, fun j below => (pass j below).1⟩
    have short (more : Passes faults userptr (src.str s) (userPart userptr len)) : False :=
      absurd inK (Nat.not_lt_of_le (more.le (.inl zero)))
    refine ⟨?_, ?_, fun no => absurd starts no, ?_, fun _ more => (short more).elim, fun _ more => (short more).elim,
      inside, rfl⟩
    · refine iff_of_true rfl ⟨starts, k, inK, ends, ?_⟩
      intro j le
      obtain lt | rfl := Nat.lt_or_eq_of_le le
      · exact (pass j lt).2
      · exact fault
    · intro _ k' ends'
      obtain rfl := ends.unique ends'
      exact ⟨⟨copied.dest, copied.others⟩, got⟩
    · intro _ k' _ pass' fault'
      obtain rfl := Nat.le_antisymm (pass'.le (.inl zero)) (pass.le (.inr fault'))
      rw [fault] at fault'
      cases fault'
  | limit pass =>
    rw [most] at pass
    have code : copyResult (.ok (if userPart userptr len < len then efault else enametoolong)) ≠ 0 := by
      rw [copyResult]
      split_ifs <;> decide
    refine ⟨?_, fun zero => absurd zero code, fun no => absurd starts no, ?_, ?_, ?_, inside, rfl⟩
    · refine iff_of_false code ?_
      rintro ⟨-, k, inK, ends, -⟩
      exact absurd inK (Nat.not_lt_of_le (pass.le (.inl ends.1)))
    · intro _ k inK _ fault
      exact absurd inK (Nat.not_lt_of_le (pass.le (.inr fault)))
    · intro _ _ boundary
      exact if_pos (by rw [userPart]; omega)
    · intro _ _ fits
      exact if_neg (by rw [userPart]; omega)
  | @fault k inK pass fault =>
    rw [most] at inK
    have code : copyResult (.error ()) ≠ 0 := by decide
    refine ⟨?_, fun zero => absurd zero code, fun no => absurd starts no, fun _ _ _ _ _ => rfl, fun _ _ _ => rfl, ?_,
      inside, rfl⟩
    · refine iff_of_false code ?_
      rintro ⟨-, k', -, ends, nofault⟩
      rw [nofault k (pass.le (.inl ends.1))] at fault
      cases fault
    · intro _ more _
      exact absurd inK (Nat.not_lt_of_le (more.le (.inr fault)))

/-- A copy does what it is for. -/
lemma copyStrWith_contract (across : Across userptr dest src) (pos : 0 < len) (lt : userptr < 2 ^ 32)
    (small : len < 2 ^ 32) (null : s.badfaultfunc = false) :
    ∃ result s', copyStrWith faults dest src userptr len actual s = .ok (.ok result, s') ∧
      CopystrContract faults userptr len actual dest.side dest.base (src.str s) s s' result := by
  by_cases starts : Starts userptr len
  · obtain ⟨r, t, run, ends, touched⟩ := copyStrWith_ends faults actual s across pos small starts
    exact ⟨_, _, run, ends.contract starts touched⟩
  · have code : efault ≠ 0 := by decide
    refine ⟨_, _, copyStrWith_of_not pos lt small starts, ?_⟩
    refine ⟨iff_of_false code fun both => starts both.1, fun zero => absurd zero code, fun _ => ⟨rfl, rfl⟩,
      fun yes => absurd yes starts, fun yes => absurd yes starts, fun yes => absurd yes starts, fun a mem => .inl mem,
      null⟩

/-- `tm_badfaultfunc` is reset before a copy returns. -/
lemma copyStrWith_null {r : Except Unit Nat} (null : s.badfaultfunc = false)
    (run : copyStrWith faults dest src userptr len actual s = .ok (r, s')) : s'.badfaultfunc = false := by
  rw [copyStrWith] at run
  split_ifs at run with bad
  · cases run
    exact null
  · rw [Prog.modify_andThen] at run
    cases copy : copystr faults dest src len (copycheck userptr len).1 actual { s with badfaultfunc := true } with
    | error h =>
      rw [Prog.andThen_of_halt (Prog.attempt_of_halt copy)] at run
      cases run
    | ok result =>
      rw [Prog.andThen_of_run (Prog.attempt_of_run copy)] at run
      cases run
      rfl

end

/-- `tm_badfaultfunc` is `NULL` between calls. -/
lemma StrReach.null {s : StrMem} (h : StrReach s) : s.badfaultfunc = false := by
  induction h with
  | start null => exact null
  | copyinstr _ run ih => exact copyStrWith_null ih run
  | copyoutstr _ run ih => exact copyStrWith_null ih run
  | change _ ih => exact ih

/-- What `copyinstr` and `copyoutstr` return and copy, for every region that is not empty. -/
theorem copystr_contract {s : StrMem} (reach : StrReach s) (faults : Nat → Bool) (userptr len : UInt32)
    (actual : Bool) (pos : 0 < len.toNat) :
    (∃ result s', copyinstr faults userptr.toNat len.toNat actual s = .ok (.ok result, s') ∧
      CopystrContract faults userptr.toNat len.toNat actual .kernel 0 (fun i => s.mem .user (userptr.toNat + i)) s s'
        result) ∧
    ∃ result s', copyoutstr faults userptr.toNat len.toNat actual s = .ok (.ok result, s') ∧
      CopystrContract faults userptr.toNat len.toNat actual .user userptr.toNat (s.mem .kernel) s s' result := by
  have kernel : CharPtr.kernel.str s = s.mem .kernel := by
    funext i
    rw [CharPtr.str, CharPtr.base, Nat.zero_add]
    rfl
  refine ⟨copyStrWith_contract .copyin pos userptr.toNat_lt len.toNat_lt reach.null, ?_⟩
  rw [← kernel]
  exact copyStrWith_contract .copyout pos userptr.toNat_lt len.toNat_lt reach.null

/-- The string `"a"` at the end of user memory. -/
def lastChar : StrMem where
  mem _ x := if x = userspaceTop - 1 then 97 else 0
  badfaultfunc := false
  touched := []
  actual := 0

/-- With a buffer of two characters, it runs into the kernel. -/
theorem copystr_contract_boundary : ∃ s',
    copyinstr (fun _ => false) (userspaceTop - 1) 2 true lastChar = .ok (.ok efault, s') := by
  obtain ⟨⟨result, s', run, contract⟩, -⟩ := copystr_contract (s := lastChar) (.start rfl) (fun _ => false)
    (.ofNat (userspaceTop - 1)) 2 true (by decide)
  have starts : Starts (userspaceTop - 1) 2 := ⟨by decide, by decide⟩
  have pass : Passes (fun _ => false) (userspaceTop - 1) (fun i => lastChar.mem .user (userspaceTop - 1 + i))
      (userPart (userspaceTop - 1) 2) := by
    intro j lt
    obtain rfl : j = 0 := by
      rw [userPart] at lt
      omega
    exact ⟨by decide, rfl⟩
  obtain rfl := contract.boundary starts pass (by decide)
  exact ⟨s', run⟩

end PDS.Kern
