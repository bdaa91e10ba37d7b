import PDS.Kern.RunProgram
import PDS.Kern.UserAccess
import PDS.Kern.LoadElfRun

/-!
# Arguments on the user stack

What a new program finds on its stack (`ArgsPassed`), and when: the terminators of the strings are never
copied but are the zeros of `as_prepare_load`, so the pieces have to be disjoint, and `copyout` must not
fail, since its result is ignored.

`copyArg_spec` follows one argument and `copyArgs_spec`, by induction on the arguments, all of them. Both
say what is on the stack when every access is served, and what is missing when one is not; a write that
fails leaves a zero where the string has a character.
-/

namespace PDS.Kern
open Word Extent

/-- The word at a user address. -/
def AddrSpace.Word (as : AddrSpace) (mem : Pmem) (va w : Nat) : Prop :=
  ∀ j < 4, as.Byte mem (va + j) (wordByte w j)

/-- The bytes of a word, the most significant first. -/
lemma wordByte_toNat (w j : Nat) : (wordByte w j).toNat = w / 256 ^ (3 - j) % 256 := UInt8.toNat_ofNat'

/-- A word is its four bytes. -/
lemma wordByte_inj {w w' : Nat} (lt : w < 2 ^ 32) (lt' : w' < 2 ^ 32)
    (h : ∀ j < 4, wordByte w' j = wordByte w j) : w' = w := by
  have byte : ∀ j < 4, w' / 256 ^ (3 - j) % 256 = w / 256 ^ (3 - j) % 256 := by
    intro j hj
    rw [← wordByte_toNat, ← wordByte_toNat, h j hj]
  have b₀ := byte 0 (by omega)
  have b₁ := byte 1 (by omega)
  have b₂ := byte 2 (by omega)
  have b₃ := byte 3 (by omega)
  norm_num at b₀ b₁ b₂ b₃
  omega

/-- Four bytes of a word make up the word. -/
lemma bigEndian_word {w : Nat} {f : Nat → UInt8} (lt : w < 2 ^ 32) (h : ∀ j < 4, f j = wordByte w j) :
    bigEndian ((List.range 4).map f) 0 4 = w := by
  have list : (List.range 4).map f = [wordByte w 0, wordByte w 1, wordByte w 2, wordByte w 3] := by
    rw [← h 0 (by omega), ← h 1 (by omega), ← h 2 (by omega), ← h 3 (by omega)]
    rfl
  rw [list, bigEndian]
  simp only [List.drop_zero, List.take, List.foldl, wordByte_toNat]
  norm_num
  omega

namespace AddrSpace

variable {as : AddrSpace} {mem : Pmem} {va pa w w' : Nat}

/-- An address holds one byte. -/
lemma Byte.unique {x y : UInt8} (h : as.Byte mem va x) (h' : as.Byte mem va y) : y = x := by
  obtain ⟨pa, t, rfl⟩ := h
  obtain ⟨pa', t', rfl⟩ := h'
  rw [t.unique t']

/-- An address holds one word. -/
lemma Word.unique (lt : w < 2 ^ 32) (lt' : w' < 2 ^ 32) (h : as.Word mem va w) (h' : as.Word mem va w') :
    w' = w :=
  wordByte_inj lt lt' fun j hj => (h j hj).unique (h' j hj)

/-- An aligned word does not cross a page. -/
lemma word_page {j : Nat} (lt : va + 4 ≤ 2 ^ 32) (al : va % 4 = 0) (hj : j < 4) :
    (va + j) &&& pageFrame = va &&& pageFrame ∧ (va + j) % pageSize = va % pageSize + j := by
  rw [and_pageFrame (by omega), and_pageFrame (by omega)]
  simp only [pageSize]
  omega

end AddrSpace

namespace Mach

variable {m : Mach} {as : AddrSpace} {va pa w : Nat}

/-- A word is stored as a whole, or the kernel panics. -/
lemma storeWord_spec (us : m.User as) (bk : as.Backed) (low : va + 4 ≤ kseg0) (al : va % 4 = 0)
    (t : as.Translates va pa) :
    (∃ m', m.storeWord va w = .ok m' ∧ m'.User as ∧ m'.preempted = m.preempted ∧
      m.access va = some m'.table ∧ as.Word m'.phys.mem va w ∧
      as.Keeps m.phys.mem m'.phys.mem ⟨va, 4⟩) ∨
    ((∃ h, m.storeWord va w = .error h) ∧ m.access va = none) := by
  have top : kseg0 < 2 ^ 32 := by decide
  obtain ⟨m₁, e, phys, us₁, pre, acc⟩ | ⟨m₁, e, -, -, -, acc⟩ :=
    translate_table us (by omega) t (.inr rfl)
  swap
  · right
    rw [storeWord, if_neg (not_not.2 al), e]
    exact ⟨⟨_, rfl⟩, acc⟩
  left
  rw [storeWord, if_neg (not_not.2 al), e]
  refine ⟨_, rfl, ⟨us₁.space, us₁.tlb⟩, pre, acc, ?_, ?_⟩
  · intro j hj
    obtain ⟨page, off⟩ := AddrSpace.word_page (by omega) al hj
    refine ⟨pa, t.congr page, ?_⟩
    dsimp only
    rw [off, if_pos (by omega)]
    congr 1
    omega
  · rintro va' x lt out ⟨pa', t', rfl⟩
    refine ⟨pa', t', ?_⟩
    dsimp only
    rw [if_neg, phys]
    rintro ⟨le, lt4⟩
    -- the byte would be one of the word
    obtain ⟨j, hj⟩ := Nat.exists_eq_add_of_le le
    have j4 : j < 4 := by omega
    obtain ⟨page, off⟩ := AddrSpace.word_page (by omega) al j4
    have same := bk.byte_inj (by omega) lt (t.congr page) t' (by omega)
    simp only [Block.Has, Block.stop] at out
    omega

/-- A word that is in memory is loaded, or the kernel panics. -/
lemma loadWord_spec (us : m.User as) (low : va + 4 ≤ kseg0) (al : va % 4 = 0) (lt : w < 2 ^ 32)
    (word : as.Word m.phys.mem va w) :
    (∃ m', m.loadWord va = .ok (m', w) ∧ m'.phys = m.phys ∧ m'.User as ∧ m'.preempted = m.preempted ∧
      m.access va = some m'.table) ∨
    ((∃ h, m.loadWord va = .error h) ∧ m.access va = none) := by
  have top : kseg0 < 2 ^ 32 := by decide
  obtain ⟨pa, t, -⟩ := word 0 (by omega)
  rw [Nat.add_zero] at t
  obtain ⟨m₁, e, phys, us₁, pre, acc⟩ | ⟨m₁, e, -, -, -, acc⟩ :=
    translate_table us (by omega) t (.inl rfl)
  swap
  · right
    rw [loadWord, if_neg (not_not.2 al), e]
    exact ⟨⟨_, rfl⟩, acc⟩
  left
  refine ⟨m₁, ?_, phys, us₁, pre, acc⟩
  rw [loadWord, if_neg (not_not.2 al), e]
  have read : bigEndian ((List.range 4).map fun j => m₁.phys.mem (pa + va % pageSize + j)) 0 4 = w := by
    refine bigEndian_word lt ?_
    intro j hj
    obtain ⟨page, off⟩ := AddrSpace.word_page (by omega) al hj
    obtain ⟨pa', t', h⟩ := word j hj
    rw [← h, phys, (t.congr page).unique t', off, Nat.add_assoc]
  simp only [ok_bind, read]

end Mach

/-- `copyout` of a string to user memory. An empty string fails the check for addresses that wrap. -/
lemma copyout_user {m : Mach} {src : List UInt8} {dest : Nat} (pos : 0 < dest)
    (top : dest + src.length ≤ userspaceTop) (low : dest < userspaceTop) :
    copyout m src dest = if src = [] then .ok (m, efault) else (do
      let (m, ok) ← m.storeBytes dest src
      .ok (m, if ok then 0 else efault)) := by
  have small : userspaceTop < 2 ^ 32 := by decide
  have sum : wadd 32 dest src.length = dest + src.length := wadd_of_lt (by omega)
  have last : wsub 32 (dest + src.length) 1 = dest + src.length - 1 := wsub_of_le (by omega) (by omega)
  have nz : efault ≠ 0 := by decide
  rw [copyout, copycheck, sum, last]
  dsimp only
  by_cases empty : src = []
  · subst empty
    rw [List.length_nil, Nat.add_zero, if_pos (show dest - 1 < dest by omega), if_pos rfl, if_pos nz]
  · have len := List.length_pos_iff.2 empty
    rw [if_neg (show ¬ dest + src.length - 1 < dest by omega), if_neg (Nat.not_le.2 low),
      if_neg (show ¬ dest + src.length - 1 ≥ userspaceTop by omega), if_neg empty]
    simp only [ne_eq, not_true, if_false]

/-- A string with its terminator. -/
def AddrSpace.HasString (as : AddrSpace) (mem : Pmem) (p : Nat) (s : CString) : Prop :=
  (∀ k (h : k < s.strlen), as.Byte mem (p + k) (s.bytes.get ⟨k, h⟩)) ∧ as.Byte mem (p + s.strlen) 0

/-- The size of a string on the stack. -/
def CString.area (s : CString) : Nat := 4 * (s.strlen / 4 + 1)

/-- The area of a string has room for its terminator. -/
lemma CString.strlen_lt (s : CString) : s.strlen < s.area := by
  rw [area]
  omega

/-- A zero where a string has a character: the string is not there. -/
lemma AddrSpace.HasString.no_zero {as : AddrSpace} {mem : Pmem} {p k : Nat} {s : CString}
    (has : as.HasString mem p s) (hk : k < s.strlen) : ¬ as.Byte mem (p + k) 0 := by
  intro zero
  have nul : s.bytes.get ⟨k, hk⟩ = 0 := zero.unique (has.1 k hk)
  exact s.nul (nul ▸ List.get_mem ..)

/-- The addresses that one argument accesses. -/
def argAccesses (slot p : Nat) (s : CString) : List Nat := slot :: slot :: List.range' p s.strlen

section
variable {m : Mach} {as : AddrSpace} {slot p : Nat} {s : CString}

/-- The string of one argument is written over zeros: it is there when all accesses are served, and a
character is missing when one is not. -/
lemma copyString_spec (us : m.User as) (bk : as.Backed) (pos : 0 < p) (low : p + s.area ≤ userspaceTop)
    (zero : ∀ x, p ≤ x → x < p + s.area → as.Byte m.phys.mem x 0) :
    ∃ m' r, copyout m s.bytes p = .ok (m', r) ∧ m'.User as ∧ m'.preempted = m.preempted ∧
      as.Keeps m.phys.mem m'.phys.mem ⟨p, s.area⟩ ∧
      ((m.serve (List.range' p s.strlen) = some m'.table ∧ as.HasString m'.phys.mem p s) ∨
        (m.serve (List.range' p s.strlen) = none ∧ ∃ k < s.strlen, as.Byte m'.phys.mem (p + k) 0)) := by
  have len := s.strlen_lt
  have low' : userspaceTop = kseg0 := rfl
  have small : userspaceTop < 2 ^ 32 := by decide
  rw [copyout_user pos (by rw [CString.strlen] at len; omega) (by omega)]
  by_cases empty : s.bytes = []
  · have none : s.strlen = 0 := by rw [CString.strlen, empty, List.length_nil]
    rw [if_pos empty, none]
    refine ⟨m, efault, rfl, us, rfl, fun _ _ _ _ h => h, .inl ⟨rfl, ?_, ?_⟩⟩
    · intro k h
      omega
    · rw [none]
      exact zero p (le_refl _) (by omega)
  rw [if_neg empty]
  have tr : ∀ x, p ≤ x → x < p + s.bytes.length → ∃ pa, as.Translates x pa := by
    intro x le lt
    rw [CString.strlen] at len
    obtain ⟨pa, t, -⟩ := zero x le (by omega)
    exact ⟨pa, t⟩
  obtain ⟨m', e, pre, srv⟩ | ⟨m', k, e, hk, us', pre, srv, keep⟩ :=
    Mach.storeBytes_table us bk (by rw [CString.strlen] at len; omega) tr
  · obtain ⟨us', stored, keep⟩ := Mach.storeBytes_spec us bk (by rw [CString.strlen] at len; omega) e
    simp only [e, ok_bind]
    refine ⟨m', 0, rfl, us', pre, ?_, .inl ⟨srv, fun k h => stored k h, ?_⟩⟩
    · intro x y lt out
      simp only [Block.Has, Block.stop, CString.strlen] at out len
      exact keep x y lt (by omega)
    · exact keep _ _ (by omega) (.inr (le_refl _)) (zero _ (by omega) (by omega))
  · simp only [e, ok_bind]
    refine ⟨m', efault, rfl, us', pre, ?_, .inr ⟨srv, k, hk, ?_⟩⟩
    · intro x y lt out
      simp only [Block.Has, Block.stop, CString.strlen] at out len
      refine keep x y lt ?_
      simp only [Block.Has, Block.stop]
      omega
    · rw [CString.strlen] at len
      refine keep _ _ (by omega) ?_ (zero _ (by omega) (by omega))
      simp only [Block.Has, Block.stop]
      omega

/-- One iteration of the loop over the arguments. -/
lemma copyArg_spec (us : m.User as) (bk : as.Backed) (al : slot % 4 = 0) (hp : 0 < p)
    (ap : p + s.area ≤ slot) (low : slot + 4 ≤ userspaceTop)
    (zero : ∀ x, p ≤ x → x < p + s.area → as.Byte m.phys.mem x 0) (mapped : ∃ pa, as.Translates slot pa) :
    (∃ m', copyArg m slot p s = .ok m' ∧ m'.User as ∧ m'.preempted = m.preempted ∧
      (∀ x y, x < 2 ^ 32 → ¬ (⟨p, s.area⟩ : Block).Has x → ¬ (⟨slot, 4⟩ : Block).Has x →
        as.Byte m.phys.mem x y → as.Byte m'.phys.mem x y) ∧
      as.Word m'.phys.mem slot p ∧
      ((m.serve (argAccesses slot p s) = some m'.table ∧ as.HasString m'.phys.mem p s) ∨
        (m.serve (argAccesses slot p s) = none ∧ ∃ k < s.strlen, as.Byte m'.phys.mem (p + k) 0))) ∨
    ((∃ h, copyArg m slot p s = .error h) ∧ m.serve (argAccesses slot p s) = none) := by
  have low' : userspaceTop = kseg0 := rfl
  have small : userspaceTop < 2 ^ 32 := by decide
  obtain ⟨pa, t⟩ := mapped
  rw [argAccesses]
  obtain ⟨m₁, e₁, us₁, pre₁, acc₁, word₁, keep₁⟩ | ⟨⟨h, e₁⟩, acc₁⟩ :=
    Mach.storeWord_spec (w := p) us bk (by omega) al t
  swap
  · right
    simp only [copyArg, e₁, error_bind]
    exact ⟨⟨h, rfl⟩, Mach.serve_cons_none acc₁⟩
  rw [Mach.serve_cons acc₁ pre₁]
  obtain ⟨m₂, e₂, phys₂, us₂, pre₂, acc₂⟩ | ⟨⟨h, e₂⟩, acc₂⟩ :=
    Mach.loadWord_spec us₁ (by omega) al (by omega) word₁
  swap
  · right
    simp only [copyArg, e₁, ok_bind, e₂, error_bind]
    exact ⟨⟨h, rfl⟩, Mach.serve_cons_none acc₂⟩
  rw [Mach.serve_cons acc₂ pre₂]
  left
  have zero₂ : ∀ x, p ≤ x → x < p + s.area → as.Byte m₂.phys.mem x 0 := by
    intro x le lt
    rw [phys₂]
    refine keep₁ x 0 (by omega) ?_ (zero x le lt)
    simp only [Block.Has, Block.stop]
    omega
  obtain ⟨m', r, e₃, us', pre₃, keep₃, done⟩ := copyString_spec us₂ bk hp (by omega) zero₂
  refine ⟨m', ?_, us', pre₃.trans (pre₂.trans pre₁), ?_, ?_, done⟩
  · simp only [copyArg, bind_ok_iff]
    exact ⟨m₁, e₁, (m₂, p), e₂, (m', r), e₃, rfl⟩
  · intro x y lt out out' h
    refine keep₃ x y lt out ?_
    rw [phys₂]
    exact keep₁ x y lt out' h
  · intro j hj
    refine keep₃ _ _ (by omega) ?_ ?_
    · simp only [Block.Has, Block.stop]
      omega
    · rw [phys₂]
      exact word₁ j hj

end

/-- The size of all strings on the stack. -/
def stringsSize (argv : List CString) : Nat := (argv.map CString.area).sum

/-- The areas add up. -/
@[simp] lemma stringsSize_cons (s : CString) (argv : List CString) :
    stringsSize (s :: argv) = s.area + stringsSize argv := rfl

/-- The address of string `j`, when the strings are stacked below `top`. -/
def stringAddr (top : Nat) (argv : List CString) (j : Nat) : Nat := top - stringsSize (argv.take (j + 1))

/-- The first string lies on top. -/
lemma stringAddr_zero (top : Nat) (s : CString) (argv : List CString) :
    stringAddr top (s :: argv) 0 = top - s.area := by
  simp [stringAddr, stringsSize]

/-- The later strings lie below the first. -/
lemma stringAddr_succ (top : Nat) (s : CString) (argv : List CString) (j : Nat) :
    stringAddr top (s :: argv) (j + 1) = stringAddr (top - s.area) argv j := by
  simp only [stringAddr, List.take_succ_cons, stringsSize_cons, Nat.sub_sub]

/-- The addresses that the arguments from number `i` on access. -/
def argsAccesses (uargv : Nat) : Nat → Nat → List CString → List Nat
  | _, _, [] => []
  | i, top, s :: argv =>
    argAccesses (uargv + 4 * i) (top - s.area) s ++ argsAccesses uargv (i + 1) (top - s.area) argv

/-- Where the loop over the arguments may write: the pointers from number `i` on, and the strings. -/
def ArgsAt (uargv i top : Nat) (argv : List CString) (x : Nat) : Prop :=
  (top - stringsSize argv ≤ x ∧ x < top) ∨ (uargv + 4 * i ≤ x ∧ x < uargv + 4 * (i + argv.length))

/-- The lowest address of the user stack. -/
def stackbase : Nat := userstack - vmStackpages * pageSize

/-- The loop over the arguments: the pointers are there, and all strings when all accesses are served. -/
lemma copyArgs_spec {m : Mach} {as : AddrSpace} {uargv i top : Nat} (argv : List CString) (us : m.User as)
    (bk : as.Backed) (tr : ∀ x, stackbase ≤ x → x < userstack → ∃ pa, as.Translates x pa)
    (zero : ∀ x, stackbase ≤ x → x < top → as.Byte m.phys.mem x 0)
    (room : stackbase + stringsSize argv ≤ top) (le : top ≤ uargv) (al : uargv % 4 = 0)
    (fits : uargv + 4 * (i + argv.length) ≤ userstack) :
    (∃ m', copyArgs uargv m i top argv = .ok (m', top - stringsSize argv) ∧ m'.User as ∧
      (∀ x y, x < 2 ^ 32 → ¬ ArgsAt uargv i top argv x → as.Byte m.phys.mem x y → as.Byte m'.phys.mem x y) ∧
      (∀ j < argv.length, as.Word m'.phys.mem (uargv + 4 * (i + j)) (stringAddr top argv j)) ∧
      (((m.serve (argsAccesses uargv i top argv)).isSome ∧
          ∀ j (h : j < argv.length), as.HasString m'.phys.mem (stringAddr top argv j) (argv.get ⟨j, h⟩)) ∨
        (m.serve (argsAccesses uargv i top argv) = none ∧
          ∃ j, ∃ h : j < argv.length, ∃ k < (argv.get ⟨j, h⟩).strlen,
            as.Byte m'.phys.mem (stringAddr top argv j + k) 0))) ∨
    ((∃ h, copyArgs uargv m i top argv = .error h) ∧
      m.serve (argsAccesses uargv i top argv) = none) := by
  have base : 0 < stackbase := by decide
  have small : userstack < 2 ^ 32 := by decide
  have low : userstack = userspaceTop := rfl
  induction argv generalizing m i top with
  | nil => exact .inl ⟨m, rfl, us, fun _ _ _ _ h => h, by simp, .inl ⟨rfl, by simp⟩⟩
  | cons s argv ih =>
    rw [stringsSize_cons] at room
    rw [List.length_cons] at fits
    have len := s.strlen_lt
    -- the machine arithmetic of the loop does not wrap
    have area : wmul 32 (wadd 32 (s.strlen / 4) 1) 4 = s.area := by
      have sum : wadd 32 (s.strlen / 4) 1 = s.strlen / 4 + 1 := wadd_of_lt (by omega)
      have mul : (s.strlen / 4 + 1) * 4 = s.area := Nat.mul_comm _ _
      rw [sum, wmul_of_lt (by omega), mul]
    have place : wsub 32 top s.area = top - s.area := wsub_of_le (by omega) (by omega)
    have slot : wadd 32 uargv (wmul 32 i 4) = uargv + 4 * i := by
      have mul : wmul 32 i 4 = 4 * i := by
        rw [Nat.mul_comm]
        exact wmul_of_lt (by omega)
      rw [mul, wadd_of_lt (by omega)]
    simp only [copyArgs, area, place, slot, argsAccesses]
    generalize hp : top - s.area = p at *
    obtain ⟨m₁, e, us₁, pre, keep₁, word, done⟩ | ⟨⟨h, e⟩, srv⟩ :=
      copyArg_spec (p := p) (s := s) us bk (show (uargv + 4 * i) % 4 = 0 by omega) (by omega) (by omega) (by omega)
        (fun x _ _ => zero x (by omega) (by omega)) (tr _ (by omega) (by omega))
    swap
    · right
      rw [e, error_bind]
      exact ⟨⟨h, rfl⟩, Mach.serve_append_none srv⟩
    rw [e, ok_bind]
    have zero₁ : ∀ x, stackbase ≤ x → x < p → as.Byte m₁.phys.mem x 0 := by
      intro x h h'
      refine keep₁ x 0 (by omega) ?_ ?_ (zero x h (by omega))
      all_goals
        simp only [Block.Has, Block.stop]
        omega
    have below : stringsSize (s :: argv) = s.area + stringsSize argv := rfl
    have first := stringAddr_zero top s argv
    have next := stringAddr_succ top s argv
    rw [hp] at first next
    obtain ⟨m', e', us', keep, words, rest⟩ | ⟨⟨h, e'⟩, srv⟩ :=
      @ih m₁ (i + 1) p us₁ zero₁ (by omega) (by omega) (by omega)
    swap
    · right
      refine ⟨⟨h, e'⟩, ?_⟩
      obtain ⟨srv₁, -⟩ | ⟨srv₁, -⟩ := done
      · rw [Mach.serve_append srv₁ pre, srv]
      · exact Mach.serve_append_none srv₁
    left
    -- what this iteration wrote is left alone by the others
    have kept : ∀ x y, x < 2 ^ 32 → ((p ≤ x ∧ x < top) ∨ (uargv + 4 * i ≤ x ∧ x < uargv + 4 * i + 4)) →
        as.Byte m₁.phys.mem x y → as.Byte m'.phys.mem x y := by
      intro x y lt this
      refine keep x y lt ?_
      rw [ArgsAt]
      omega
    refine ⟨m', ?_, us', ?_, ?_, ?_⟩
    · rw [e', stringsSize_cons, ← hp, Nat.sub_sub]
    · intro x y lt out h
      rw [ArgsAt, below, List.length_cons] at out
      refine keep x y lt ?_ (keep₁ x y lt ?_ ?_ h)
      · rw [ArgsAt]
        omega
      all_goals
        simp only [Block.Has, Block.stop]
        omega
    · intro j hj
      cases j with
      | zero =>
        rw [first]
        exact fun b hb => kept _ _ (by omega) (by omega) (word b hb)
      | succ j =>
        rw [next, Nat.add_comm j 1, ← Nat.add_assoc]
        exact words j (by simpa using hj)
    · obtain ⟨srv₁, str₁⟩ | ⟨srv₁, k, hk, miss⟩ := done
      · rw [Mach.serve_append srv₁ pre]
        obtain ⟨srv, strs⟩ | ⟨srv, j, hj, k, hk, miss⟩ := rest
        · refine .inl ⟨srv, ?_⟩
          intro j hj
          cases j with
          | zero =>
            rw [first]
            have str : as.HasString m'.phys.mem p s := ⟨fun k hk =>
              kept _ _ (by omega) (by omega) (str₁.1 k hk), kept _ _ (by omega) (by omega) str₁.2⟩
            exact str
          | succ j =>
            rw [next]
            exact strs j (by simpa using hj)
        · refine .inr ⟨srv, j + 1, by simpa using hj, k, hk, ?_⟩
          rw [next]
          exact miss
      · refine .inr ⟨Mach.serve_append_none srv₁, 0, Nat.succ_pos _, k, hk, ?_⟩
        rw [first]
        exact kept _ _ (by omega) (by omega) miss

section
variable {argv : List CString} {top j k : Nat}

/-- The areas of one string more. -/
lemma stringsSize_take_succ (h : j < argv.length) :
    stringsSize (argv.take (j + 1)) = stringsSize (argv.take j) + (argv.get ⟨j, h⟩).area := by
  rw [stringsSize, List.take_succ_eq_append_getElem h, List.map_append, List.sum_append]
  rfl

/-- More strings take more room. -/
lemma stringsSize_take_mono (argv : List CString) (h : j ≤ k) : stringsSize (argv.take j) ≤ stringsSize (argv.take k) := by
  refine List.Sublist.sum_le_sum ?_ (by simp)
  exact (List.take_sublist_take_left h).map _

/-- Some of the strings take no more room than all. -/
lemma stringsSize_take_le (argv : List CString) (j : Nat) : stringsSize (argv.take j) ≤ stringsSize argv :=
  List.Sublist.sum_le_sum ((List.take_sublist j argv).map _) (by simp)

/-- The areas keep the stack aligned to words. -/
lemma stringsSize_aligned (argv : List CString) : stringsSize argv % 4 = 0 := by
  induction argv with
  | nil => rfl
  | cons s argv ih =>
    rw [stringsSize_cons, CString.area]
    omega

/-- The strings are stacked one below the other. -/
lemma stringAddr_add (fits : stringsSize argv ≤ top) (h : j < argv.length) :
    stringAddr top argv j + (argv.get ⟨j, h⟩).area = top - stringsSize (argv.take j) := by
  have succ := stringsSize_take_succ h
  have le := stringsSize_take_le argv (j + 1)
  rw [stringAddr]
  omega

end

/-- The arguments as a program finds them: `uargv` is its array of pointers, `ptr j` the pointer at
index `j`. -/
structure ArgsPassed (as : AddrSpace) (mem : Pmem) (argv : List CString) (uargv stackptr : Nat)
    (ptr : Nat → Nat) : Prop where
  pointer : ∀ j < argv.length, as.Word mem (uargv + 4 * j) (ptr j) ∧ ptr j % 4 = 0
  null : as.Word mem (uargv + 4 * argv.length) 0
  string : ∀ j (h : j < argv.length), as.HasString mem (ptr j) (argv.get ⟨j, h⟩)
  array : stackbase ≤ uargv ∧ uargv + 4 * (argv.length + 1) ≤ userstack
  area : ∀ j (h : j < argv.length), stackbase ≤ ptr j ∧ ptr j + (argv.get ⟨j, h⟩).area ≤ userstack
  apart_array : ∀ j (h : j < argv.length),
    Block.Apart ⟨ptr j, (argv.get ⟨j, h⟩).area⟩ ⟨uargv, 4 * (argv.length + 1)⟩
  apart : ∀ j k (h : j < argv.length) (h' : k < argv.length), j ≠ k →
    Block.Apart ⟨ptr j, (argv.get ⟨j, h⟩).area⟩ ⟨ptr k, (argv.get ⟨k, h'⟩).area⟩
  aligned : stackptr % 8 = 0
  below : stackptr ≤ uargv ∧ ∀ j < argv.length, stackptr ≤ ptr j

/-- Where the array of pointers is. -/
def argvAddr (argv : List CString) : Nat := userstack - 4 * (argv.length + 1)

/-- The addresses that `runprogram` accesses to pass the arguments, in this order. -/
def stackAccesses (argv : List CString) : List Nat :=
  (argvAddr argv + 4 * argv.length) :: argsAccesses (argvAddr argv) 0 (argvAddr argv) argv

/-- The room that arguments take on the stack. -/
def argsNeed (argv : List CString) : Nat := 4 * (argv.length + 1) + stringsSize argv

/-- The arguments are passed exactly when every access is served. -/
lemma passArgs_iff {m : Mach} {as : AddrSpace} (argv : List CString) (us : m.User as) (bk : as.Backed)
    (zero : ∀ x, stackbase ≤ x → x < userstack → as.Byte m.phys.mem x 0)
    (fits : argsNeed argv ≤ vmStackpages * pageSize) :
    (∃ m' uargv stackptr as' ptr, passArgs m userstack argv = .ok (m', uargv, stackptr) ∧
      m'.as = some as' ∧ ArgsPassed as' m'.phys.mem argv uargv stackptr ptr) ↔
    (m.serve (stackAccesses argv)).isSome := by
  have base : stackbase + vmStackpages * pageSize = userstack := by decide
  have base8 : stackbase % 8 = 0 := by decide
  have top8 : userstack % 8 = 0 := by decide
  have small : userstack < 2 ^ 32 := by decide
  have low : userstack = kseg0 := rfl
  have need : 4 * (argv.length + 1) + stringsSize argv ≤ vmStackpages * pageSize := fits
  -- the machine arithmetic does not wrap
  have argc : wmul 32 (wadd 32 argv.length 1) 4 = 4 * (argv.length + 1) := by
    rw [wadd_of_lt (by omega), wmul_of_lt (by omega), Nat.mul_comm]
  have array : wsub 32 userstack (4 * (argv.length + 1)) = argvAddr argv := wsub_of_le (by omega) small
  have hu : argvAddr argv + 4 * (argv.length + 1) = userstack := by
    rw [argvAddr]
    omega
  have last : wadd 32 (argvAddr argv) (wmul 32 argv.length 4) = argvAddr argv + 4 * argv.length := by
    have mul : wmul 32 argv.length 4 = argv.length * 4 := wmul_of_lt (by omega)
    rw [mul, Nat.mul_comm, wadd_of_lt (by omega)]
  have tr : ∀ x, stackbase ≤ x → x < userstack → ∃ pa, as.Translates x pa := by
    intro x h h'
    obtain ⟨pa, t, -⟩ := zero x h h'
    exact ⟨pa, t⟩
  simp only [passArgs, argc, array, last, stackAccesses]
  generalize argvAddr argv = uargv at *
  obtain ⟨pa, t⟩ := tr (uargv + 4 * argv.length) (by omega) (by omega)
  obtain ⟨m₁, e₁, us₁, pre₁, acc₁, null, keep₁⟩ | ⟨⟨h, e₁⟩, acc₁⟩ :=
    Mach.storeWord_spec (w := 0) us bk (by omega) (by omega) t
  swap
  · rw [Mach.serve_cons_none acc₁, e₁]
    simp
  rw [Mach.serve_cons acc₁ pre₁, e₁]
  have zero₁ : ∀ x, stackbase ≤ x → x < uargv → as.Byte m₁.phys.mem x 0 := by
    intro x h h'
    refine keep₁ x 0 (by omega) ?_ (zero x h (by omega))
    simp only [Block.Has, Block.stop]
    omega
  obtain ⟨m₂, e₂, us₂, keep₂, words, rest⟩ | ⟨⟨h, e₂⟩, srv⟩ :=
    copyArgs_spec (i := 0) argv us₁ bk tr zero₁ (by omega) (le_refl uargv) (by omega) (by omega)
  swap
  · rw [srv, ok_bind, e₂]
    simp
  simp only [ok_bind, e₂, Except.ok.injEq, Prod.mk.injEq]
  have mask : (2 : Nat) ^ 32 - 1 - 7 = 2 ^ 32 - 2 ^ 3 := by decide
  rw [mask, and_highMask (by decide) (by omega)]
  simp only [Nat.zero_add] at words
  obtain ⟨srv, strs⟩ | ⟨srv, j, hj, k, hk, miss⟩ := rest
  · refine iff_of_true ⟨m₂, uargv, _, as, stringAddr uargv argv, ⟨rfl, rfl, rfl⟩, us₂.space, ?_⟩ srv
    have size := stringsSize_aligned argv
    have place : ∀ j, stringAddr uargv argv j % 4 = 0 ∧ uargv - stringsSize argv ≤ stringAddr uargv argv j := by
      intro j
      have al := stringsSize_aligned (argv.take (j + 1))
      have le := stringsSize_take_le argv (j + 1)
      rw [stringAddr]
      omega
    have end_ : ∀ j (h : j < argv.length), stringAddr uargv argv j + (argv.get ⟨j, h⟩).area ≤ uargv := by
      intro j h
      rw [stringAddr_add (by omega) h]
      omega
    have order : ∀ j k (h : j < argv.length) (h' : k < argv.length), j < k →
        stringAddr uargv argv k + (argv.get ⟨k, h'⟩).area ≤ stringAddr uargv argv j := by
      intro j k h h' lt
      rw [stringAddr_add (by omega) h', stringAddr]
      have mono := stringsSize_take_mono argv (show j + 1 ≤ k by omega)
      omega
    refine ⟨fun j h => ⟨words j h, (place j).1⟩, ?_, strs, ⟨by omega, by omega⟩, ?_, ?_, ?_, by omega,
      by omega, fun j _ => ?_⟩
    · intro b hb
      refine keep₂ _ _ (by omega) ?_ (null b hb)
      rw [ArgsAt]
      omega
    · intro j h
      have := end_ j h
      have := (place j).2
      omega
    · intro j h
      exact .inl (end_ j h)
    · intro j k h h' ne
      rcases Nat.lt_or_gt_of_ne ne with lt | lt
      · exact .inr (order j k h h' lt)
      · exact .inl (order k j h' h lt)
    · have := (place j).2
      omega
  · -- the pointer leads to the place where a character is missing
    rw [srv]
    refine iff_of_false ?_ (by simp)
    rintro ⟨_, _, _, as', ptr, ⟨rfl, rfl, rfl⟩, space, passed⟩
    cases us₂.space.symm.trans space
    have area := passed.area j hj
    have le := stringAddr_add (show stringsSize argv ≤ uargv by omega) hj
    have same := (words j hj).unique (by omega) (by omega) (passed.pointer j hj).1
    rw [← same] at miss
    exact (passed.string j hj).no_zero hk miss

/-- The addresses at which bytes of the file are stored for a segment. -/
def Phdr.accesses (ph : Phdr) : List Nat := List.range' ph.vaddr.toNat ph.fromFile

/-- The addresses that `load_elf` accesses to load the segments of a file, in this order. -/
def Vnode.accesses (vn : Vnode) : List Nat := vn.segments.flatMap Phdr.accesses

/-- The second pass over the program headers accesses the segments, and leaves the stack alone. -/
lemma forPhdrs_stack {vn : Vnode} {eh : Ehdr} {n i : Nat} {m m' : Mach} {as : AddrSpace} (us : m.User as)
    (bk : as.Backed)
    (apart : ∀ ph ∈ loads (vn.phdrs eh n i), ph.range.stop ≤ stackbase ∨ userstack ≤ ph.range.start)
    (e : forPhdrs vn eh (readSegment vn) n i m = .ok (m', 0)) :
    m'.User as ∧ (∀ x b, stackbase ≤ x → x < userstack → as.Byte m.phys.mem x b → as.Byte m'.phys.mem x b) ∧
      m'.preempted = m.preempted ∧ m.serve ((loads (vn.phdrs eh n i)).flatMap Phdr.accesses) = some m'.table := by
  have small : userstack < 2 ^ 32 := by decide
  have low : userstack = kseg0 := rfl
  have low' : userspaceTop = kseg0 := rfl
  have base : stackbase < userstack := by decide
  induction n generalizing i m with
  | zero =>
    cases e
    exact ⟨us, fun _ _ _ _ h => h, rfl, rfl⟩
  | succ n ih =>
    rw [Vnode.phdrs_succ] at apart ⊢
    obtain ⟨kind, e⟩ | ⟨kind, m₁, eb, e⟩ := forPhdrs_succ e
    · rw [loads_skip kind] at apart ⊢
      exact ih us apart e
    · rw [loads_load kind] at apart ⊢
      generalize vn.phdr eh i = ph at *
      obtain ⟨st, len, user⟩ := loadSegment_ok ph.memsz.toNat_lt ph.vaddr.toNat_lt eb
      obtain ⟨us₁, keep₁, pre₁, srv₁⟩ : m₁.User as ∧ (∀ x b, stackbase ≤ x → x < userstack →
          as.Byte m.phys.mem x b → as.Byte m₁.phys.mem x b) ∧ m₁.preempted = m.preempted ∧
          m.serve ph.accesses = some m₁.table := by
        rw [Phdr.accesses, Phdr.fromFile]
        cases Nat.eq_zero_or_pos (min ph.filesz.toNat ph.memsz.toNat) with
        | inl none =>
          rw [none] at st ⊢
          cases st
          exact ⟨us, fun _ _ _ _ h => h, rfl, rfl⟩
        | inr pos =>
          have ap := apart ph (List.mem_cons_self ..)
          have start := user pos
          have le := Nat.min_le_right ph.filesz.toNat ph.memsz.toNat
          simp only [Phdr.range, Block.stop] at ap
          obtain ⟨us₁, -, keep₁⟩ := Mach.storeBytes_spec us bk (by omega) st
          obtain ⟨pre₁, srv₁⟩ := Mach.storeBytes_served us bk (by omega) st
          rw [len] at srv₁
          exact ⟨us₁, fun x b h h' => keep₁ x b (by omega) (.inr (by omega)), pre₁, srv₁⟩
      obtain ⟨us', keep, pre, srv⟩ := ih us₁ (fun p hp => apart p (List.mem_cons_of_mem _ hp)) e
      refine ⟨us', fun x b h h' hb => keep x b h h' (keep₁ x b h h' hb), pre.trans pre₁, ?_⟩
      rw [List.flatMap_cons, Mach.serve_append srv₁ pre₁, srv]

/-- A page of the stack has a translation. -/
lemma AddrSpace.SetUp.stack_translates {as : AddrSpace} (su : as.SetUp) {x : Nat} (h : stackbase ≤ x)
    (h' : x < userstack) : ∃ pa, as.Translates x pa := by
  have small : userstack < 2 ^ 32 := by decide
  have mul : wsub 32 userstack (wmul 32 vmStackpages pageSize) = stackbase := by decide
  have base : stackbase / pageSize * pageSize = stackbase := by decide
  have page : stackbase ≤ x &&& pageFrame := by
    rw [and_pageFrame (by omega), ← base]
    exact Nat.mul_le_mul_right _ (Nat.div_le_div_right h)
  have le : x &&& pageFrame ≤ x := Nat.and_le_left
  obtain ⟨pa, look⟩ : ∃ pa, as.lookup (x &&& pageFrame) = some pa := by
    rw [AddrSpace.lookup, mul]
    split
    next => exact ⟨_, rfl⟩
    next =>
      split
      next => exact ⟨_, rfl⟩
      next => exact ⟨_, if_pos ⟨page, by omega⟩⟩
  have al := su.lookup_aligned (and_pageFrame_lt x) (pageSize_dvd_and_pageFrame x) look
  exact ⟨pa, AddrSpace.translates_iff.2 ⟨su, look, al⟩⟩

/-- After loading, the stack is zero, provided that the address space is set up; the TLB has served the segments. -/
lemma loadElf_stack {vn : Vnode} {m m' : Mach} {entry : Option Nat} (bt : m.phys.vm.Booted)
    (create : m.as = asCreate true) (activate : m.tlb = asActivate)
    (apart : ∀ ph ∈ vn.segments, ph.range.stop ≤ stackbase ∨ userstack ≤ ph.range.start)
    (load : loadElf vn m = .ok (m', entry, 0)) :
    ∃ as, m'.User as ∧ as.Backed ∧
      (as.SetUp ↔ ∃ last, vn.segments.getLast? = some last ∧ pageSize ≤ last.vaddr.toNat) ∧
      (as.SetUp → ∀ x, stackbase ≤ x → x < userstack → as.Byte m'.phys.mem x 0) ∧
      m'.preempted = m.preempted ∧ m.serve vn.accesses = some m'.table := by
  obtain ⟨m₁, m₂, e₁, e₂, e₃⟩ := loadElf_ok load
  obtain ⟨as₁, rfl, regions⟩ := forPhdrs_define create e₁
  obtain ⟨⟨ph₂, as₂, result⟩, prep, e₂⟩ := bind_ok_iff.1 e₂
  cases e₂
  obtain ⟨bk, -, -, zero⟩ := asPrepareLoad_ok bt prep
  have us : Mach.User { m with phys := ph₂, as := some as₂ } as₂ := by
    refine ⟨rfl, ?_⟩
    rw [activate]
    exact asActivate_consistent as₂
  obtain ⟨us', keep, pre, srv⟩ := forPhdrs_stack us bk apart e₃
  refine ⟨as₂, us', bk, prepared_setUp_iff bt rfl regions prep, ?_, pre, srv⟩
  intro su x h h'
  obtain ⟨pa, t⟩ := su.stack_translates h h'
  exact keep x 0 h h' (bk.byte_zero zero t)

/-- Without a set-up address space nothing can be stored on the stack. -/
lemma passArgs_setUp {m m' : Mach} {as : AddrSpace} {argv : List CString} {uargv stackptr : Nat}
    (us : m.User as) (fits : argsNeed argv ≤ vmStackpages * pageSize)
    (e : passArgs m userstack argv = .ok (m', uargv, stackptr)) : as.SetUp := by
  have need : 4 * (argv.length + 1) + stringsSize argv ≤ vmStackpages * pageSize := fits
  have room : vmStackpages * pageSize < userstack := by decide
  have small : userstack < 2 ^ 32 := by decide
  have low : userstack = kseg0 := rfl
  have argc : wmul 32 (wadd 32 argv.length 1) 4 = 4 * (argv.length + 1) := by
    rw [wadd_of_lt (by omega), wmul_of_lt (by omega), Nat.mul_comm]
  have array : wsub 32 userstack (4 * (argv.length + 1)) = userstack - 4 * (argv.length + 1) :=
    wsub_of_le (by omega) small
  have mul : wmul 32 argv.length 4 = argv.length * 4 := wmul_of_lt (by omega)
  obtain ⟨m₁, e₁, -⟩ := bind_ok_iff.1 e
  rw [argc, array, mul, wadd_of_lt (by omega), Mach.storeWord] at e₁
  split at e₁
  next => cases e₁
  next =>
    obtain ⟨⟨m₂, p⟩, et, e₁⟩ := bind_ok_iff.1 e₁
    obtain ⟨-, -, hp⟩ := Mach.translate_spec us (by omega) et
    cases p with
    | none => cases e₁
    | some x =>
      obtain ⟨pa, t, -⟩ := hp x rfl
      exact (AddrSpace.translates_iff.1 t).1

/-- The virtual pages that are accessed to load a file and to pass arguments, in this order. -/
def startPages (vn : Vnode) (argv : List CString) : List Nat :=
  (vn.accesses ++ stackAccesses argv).map (· &&& pageFrame)

/-- `runprogram` starts a program with its arguments exactly when the last segment does not start in page
`0` and, from one preemption of the thread to the next, loading the segments and passing the arguments
access no more pages than the TLB has entries. -/
theorem runprogram_passes_args_iff {vn : Vnode} {m m₁ : Mach} {as₀ : AddrSpace} {argv : List CString}
    {entry : Option Nat} (reach : m.phys.vm.Reachable) (thread : m.as = none)
    (create : asCreate true = some as₀) (load : loadElf vn (m.withSpace as₀) = .ok (m₁, entry, 0))
    (apart : ∀ ph ∈ vn.segments, ph.range.stop ≤ stackbase ∨ userstack ≤ ph.range.start)
    (fits : argsNeed argv ≤ vmStackpages * pageSize) :
    (∃ m' uargv stackptr as ptr,
      runprogram (.ok vn) true m argv
        = .ok (m', .enter argv.length uargv stackptr (entry.getD 0)) ∧
      m'.as = some as ∧ ArgsPassed as m'.phys.mem argv uargv stackptr ptr) ↔
    (∃ last, vn.segments.getLast? = some last ∧ pageSize ≤ last.vaddr.toNat) ∧
      Table.Fits numTlb m.preempted m.clock (startPages vn argv) := by
  obtain ⟨as, us, bk, setUp, zero, pre, srv⟩ :=
    loadElf_stack (m := m.withSpace as₀) reach.booted create.symm rfl apart load
  have run : runprogram (.ok vn) true m argv = (do
      let r ← passArgs m₁ userstack argv
      .ok (r.1, .enter argv.length r.2.1 r.2.2 (entry.getD 0))) := by
    have stack : as.stackpbase ≠ 0 := bk.pbase .stack
    simp only [runprogram, kassert_pos thread, ok_bind, create, load, ne_eq, not_true, if_false, us.space,
      asDefineStack, kassert_pos stack]
  have served := passArgs_iff argv us bk
  -- the TLB is empty when loading begins
  have empty : (m.withSpace as₀).table = .empty numTlb m.clock := by
    simp only [Mach.table, Mach.withSpace, Tlb.asActivate_pages, Tlb.asActivate_room, Table.empty]
  have count : (m₁.serve (stackAccesses argv)).isSome ↔ Table.Fits numTlb m.preempted m.clock (startPages vn argv) := by
    rw [← Mach.serve_append srv pre, Mach.serve, empty]
    exact Table.run_isSome_iff m.preempted _
  rw [← setUp]
  constructor
  · rintro ⟨m', uargv, stackptr, as', ptr, e, space, passed⟩
    rw [run] at e
    obtain ⟨⟨m'', u, sp⟩, ep, e⟩ := bind_ok_iff.1 e
    cases e
    have su := passArgs_setUp us fits ep
    exact ⟨su, count.1 ((served (zero su) fits).1 ⟨m'', u, sp, as', ptr, ep, space, passed⟩)⟩
  · rintro ⟨su, room⟩
    obtain ⟨m', uargv, stackptr, as', ptr, ep, space, passed⟩ := (served (zero su) fits).2 (count.2 room)
    exact ⟨m', uargv, stackptr, as', ptr, by rw [run, ep]; rfl, space, passed⟩

/-- The machine of a new thread. -/
def threadMach (vm : Vm) : Mach := ⟨⟨vm, fun _ => 0xff⟩, none, asActivate, 0, fun _ => false⟩

/-- The arguments `ab` and the empty string. -/
def twoArgs : List CString := [⟨[0x61, 0x62], by decide⟩, ⟨[], by decide⟩]

/-- Two arguments are passed to `sharedPage`. -/
theorem runprogram_passes_args_two : ∃ vm m' uargv stackptr as ptr, vmBoot smallBoot = .ok vm ∧
    runprogram (.ok sharedPage) true (threadMach vm) twoArgs
      = .ok (m', .enter 2 uargv stackptr 0x400000) ∧
    m'.as = some as ∧ ArgsPassed as m'.phys.mem twoArgs uargv stackptr ptr := by
  have eval : (do
      let vm ← vmBoot smallBoot
      let r ← loadElf sharedPage ((threadMach vm).withSpace ⟨0, 0, 0, 0, 0, 0, 0⟩)
      Except.ok r.2).toOption = some (some 0x400000, 0) := by decide +kernel
  have eval := ok_of_toOption eval
  simp only [bind_ok_iff] at eval
  obtain ⟨vm, boot, ⟨m₁, entry, result⟩, load, eq⟩ := eval
  cases eq
  have room : Table.Fits numTlb (threadMach vm).preempted (threadMach vm).clock (startPages sharedPage twoArgs) :=
    Table.fits_of_card_le (by decide +kernel)
  have reach : (threadMach vm).phys.vm.Reachable := ⟨smallBoot, vm, [], boot, rfl⟩
  have segs : sharedPage.segments
      = [⟨1, 0x74, 0x400000, 4, 8, 5⟩, ⟨1, 0x78, 0x400800, 2, 3, 6⟩] := by decide +kernel
  obtain ⟨m', uargv, stackptr, as, ptr, h⟩ :=
    (runprogram_passes_args_iff reach rfl rfl load (by rw [segs]; decide)
      (show argsNeed twoArgs ≤ vmStackpages * pageSize by decide)).2 ⟨⟨_, by rw [segs]; rfl, by decide⟩, room⟩
  exact ⟨vm, m', uargv, stackptr, as, ptr, boot, h⟩

/-- An executable whose second segment is page `0`; nothing of it comes from the file. -/
def pageZero : Vnode where
  data :=
    -- executable header
    [0x7f, 0x45, 0x4c, 0x46, 1, 2, 1, 0, 0, 0, 0, 0, 0, 0, 0, 0, 0, 2, 0, 8, 0, 0, 0, 1,
      0, 0x40, 0, 0, 0, 0, 0, 0x34, 0, 0, 0, 0, 0, 0, 0, 0, 0, 0x34, 0, 0x20, 0, 2, 0, 0, 0, 0, 0, 0] ++
    -- 8 bytes at 0x400000
    [0, 0, 0, 1, 0, 0, 0, 0x74, 0, 0x40, 0, 0, 0, 0, 0, 0, 0, 0, 0, 0, 0, 0, 0, 8, 0, 0, 0, 6, 0, 0, 0, 0] ++
    -- 4096 bytes at 0
    [0, 0, 0, 1, 0, 0, 0, 0x74, 0, 0, 0, 0, 0, 0, 0, 0, 0, 0, 0, 0, 0, 0, 0x10, 0, 0, 0, 0, 6, 0, 0, 0, 0]
  piece := fun _ resid => .ok resid

/-- `pageZero` is loaded; then `stackargv[argc] = NULL` fails an assertion of `vm_fault`. -/
theorem runprogram_panics_page_zero : ∃ vm m₁, vmBoot smallBoot = .ok vm ∧
    loadElf pageZero ((threadMach vm).withSpace ⟨0, 0, 0, 0, 0, 0, 0⟩) = .ok (m₁, some 0x400000, 0) ∧
    (∀ ph ∈ pageZero.segments, ph.range.stop ≤ stackbase ∨ userstack ≤ ph.range.start) ∧
    argsNeed [] ≤ vmStackpages * pageSize ∧
    runprogram (.ok pageZero) true (threadMach vm) [] = .error (.kassert "as->as_vbase2 != 0") := by
  have load : (do
      let vm ← vmBoot smallBoot
      let r ← loadElf pageZero ((threadMach vm).withSpace ⟨0, 0, 0, 0, 0, 0, 0⟩)
      Except.ok r.2).toOption = some (some 0x400000, 0) := by decide +kernel
  have run : (do
      let vm ← vmBoot smallBoot
      match runprogram (.ok pageZero) true (threadMach vm) [] with
      | .error h => Except.ok (some h)
      | .ok _ => .ok none).toOption = some (some (.kassert "as->as_vbase2 != 0")) := by decide +kernel
  have load := ok_of_toOption load
  have run := ok_of_toOption run
  simp only [bind_ok_iff] at load run
  obtain ⟨vm, boot, ⟨m₁, r⟩, load, eq⟩ := load
  cases eq
  obtain ⟨vm', boot', run⟩ := run
  cases boot.symm.trans boot'
  have segs : pageZero.segments
      = [⟨1, 0x74, 0x400000, 0, 8, 6⟩, ⟨1, 0x74, 0, 0, 4096, 6⟩] := by decide +kernel
  refine ⟨vm, m₁, boot, load, by rw [segs]; decide, by decide, ?_⟩
  split at run
  next h e =>
    cases run
    exact e
  next => cases run

end PDS.Kern
