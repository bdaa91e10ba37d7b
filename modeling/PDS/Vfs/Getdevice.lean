import PDS.Vfs.Path

/-!
# How a path is taken apart

Port of `getdevice` of `kern/vfs/vfslookup.c` with its buffer: the path is an array of characters with a terminating
zero, the indices `colon` and `slash` start at `-1`, a colon is overwritten, and the two loops over slashes read the
character behind the one they are at. A read behind the end of the array stops the kernel.

The grammar of the paths is `PathForm`, and `getdevice_grammar` says that `getdeviceAt` follows it; `getdeviceAt_eq`
is the connection to `getdevice` on strings, which the rest of the VFS layer is modelled with.
-/

namespace PDS.Vfs
open Kern Sfs

/-- Colon or slash. -/
def IsSep (c : UInt8) : Prop := c = 58 ∨ c = 47

instance (c : UInt8) : Decidable (IsSep c) := inferInstanceAs (Decidable (_ ∨ _))

/-- The loop that locates the first colon or slash, from the characters that are left and their index: `colon` and
`slash` (in C `getdevice`). -/
def firstSep : List UInt8 → ℤ → Except Halt (ℤ × ℤ)
  | [], _ => .error fatalFault
  | c :: rest, i =>
    if c = 0 then .ok (-1, -1)
    else if c = 58 then .ok (i, -1)
    else if c = 47 then .ok (-1, i)
    else firstSep rest (i + 1)

/-- The loops that go on while the next character is a slash, from the next characters and the index before them
(in C `getdevice`). -/
def skipSlashes : List UInt8 → Nat → Except Halt Nat
  | [], _ => .error fatalFault
  | c :: rest, p => if c = 47 then skipSlashes rest (p + 1) else .ok p

/-- What is read of the path is there, or the kernel stops. -/
def orHalt {D V F σ α : Type} : Except Halt α → VfsM D V F σ α
  | .error h => Prog.halt h
  | .ok a => pure a

/-- A computation that succeeded is passed on. -/
lemma orHalt_andThen {D V F σ α β : Type} (a : α) (f : α → VfsM D V F σ β) :
    (orHalt (.ok a) >>= f) = f a := rfl

section

variable {D V F σ : Type} [DecidableEq V] (ops : Vops D V F σ)

/-- Where `/path` and `:path` start (in C `getdevice`). -/
def leadVnode (path : List UInt8) : VfsM D V F σ V :=
  if path.head? = some 47 then do
    let w ← Prog.get
    match w.bootfs with
    | none => Prog.fail enoent
    | some v => do
      vnodeIncref v
      pure v
  else do
    Prog.require (path.head? = some 58) (.kassert "path[0]==':'")
    let vn ← vfsGetcurdir
    match ops.fs vn with
    | none => Prog.halt (.kassert "vn->vn_fs!=NULL")
    | some fs => do
      let startvn ← ops.getroot fs
      vnodeDecref ops vn
      pure startvn

/-- Common code to pull the device name, if any, off the front of a path and choose the vnode to begin the name lookup
relative to (C `getdevice`): the buffer as it is left, the index of the subpath in it, and the vnode. No caller looks at
the buffer after an error. -/
def getdeviceAt (path : List UInt8) : VfsM D V F σ (List UInt8 × Nat × V) := do
  let (colon, slash) ← orHalt (firstSep path 0)
  if colon < 0 ∧ slash ≠ 0 then do
    let startvn ← vfsGetcurdir
    pure (path, 0, startvn)
  else if colon > 0 then do
    let path := path.set colon.toNat 0
    let p ← orHalt (skipSlashes (path.drop (colon.toNat + 1)) colon.toNat)
    let startvn ← vfsGetrootVnode ops (cstring path)
    pure (path, p + 1, startvn)
  else do
    Prog.require (colon = 0 ∨ slash = 0) (.kassert "colon==0 || slash==0")
    let startvn ← leadVnode ops path
    let p ← orHalt (skipSlashes (path.drop 1) 0)
    pure (path, p + 1, startvn)

/-- Characters among which there is no colon and no slash. -/
def Plain (name : List UInt8) : Prop := ∀ c ∈ name, ¬ IsSep c

/-- The forms of a path: where the lookup starts, and the subpath. -/
inductive PathForm (path : List UInt8) : PathStart → List UInt8 → Prop where
  /-- neither a colon nor a slash -/
  | bare (plain : Plain path) : PathForm path .curdir path
  /-- the first of them is a slash, and not leading -/
  | relative {name rest : List UInt8} (plain : Plain name) (some : name ≠ [])
      (eq : path = name ++ 47 :: rest) : PathForm path .curdir path
  /-- `device:path`, with slashes before the path or not -/
  | device {name sub : List UInt8} {n : Nat} (plain : Plain name) (some : name ≠ [])
      (eq : path = name ++ 58 :: (List.replicate n 47 ++ sub)) (next : sub.head? ≠ .some 47) :
      PathForm path (.device name) sub
  /-- `/path` -/
  | bootfs {sub : List UInt8} {n : Nat} (eq : path = 47 :: (List.replicate n 47 ++ sub))
      (next : sub.head? ≠ .some 47) : PathForm path .bootfs sub
  /-- `:path` -/
  | curfs {sub : List UInt8} {n : Nat} (eq : path = 58 :: (List.replicate n 47 ++ sub))
      (next : sub.head? ≠ .some 47) : PathForm path .curfs sub

/-- The vnode at which the lookup of a path starts: the current directory, the root that `vfs_getroot` returns, the root
of the boot file system, or the root of the file system of the current directory. -/
def startVnode : PathStart → VfsM D V F σ V
  | .curdir => vfsGetcurdir
  | .device name => vfsGetrootVnode ops name
  | .bootfs => do
    let w ← Prog.get
    match w.bootfs with
    | none => Prog.fail enoent
    | some v => do
      vnodeIncref v
      pure v
  | .curfs => do
    let vn ← vfsGetcurdir
    match ops.fs vn with
    | none => Prog.halt (.kassert "vn->vn_fs!=NULL")
    | some fs => do
      let startvn ← ops.getroot fs
      vnodeDecref ops vn
      pure startvn

/-- The function on strings starts there. -/
lemma getdevice_eq_startVnode (path : List UInt8) : getdevice ops path = startVnode ops (pathStart path).1 := by
  rw [getdevice]
  cases (pathStart path).1 <;> rfl

end

/-- Characters before the first colon or slash are passed. -/
lemma firstSep_append {name : List UInt8} (plain : Plain name) (zero : 0 ∉ name) (rest : List UInt8) (i : ℤ) :
    firstSep (name ++ rest) i = firstSep rest (i + name.length) := by
  induction name generalizing i with
  | nil => simp
  | cons c name ih =>
    have sep : ¬ IsSep c := plain c List.mem_cons_self
    have plain : Plain name := fun d mem => plain d (List.mem_cons_of_mem c mem)
    have h0 : c ≠ 0 := fun h => zero (h ▸ List.mem_cons_self)
    have zero : 0 ∉ name := fun mem => zero (List.mem_cons_of_mem c mem)
    rw [List.cons_append, firstSep, if_neg h0, if_neg fun h => sep (.inl h), if_neg fun h => sep (.inr h),
      ih plain zero, List.length_cons]
    congr 1
    push_cast
    ring

/-- A loop over slashes ends at the last of them. -/
lemma skipSlashes_run {next : List UInt8} (h : next.head? ≠ some 47) (n p : Nat) :
    skipSlashes (List.replicate n 47 ++ (next ++ [0])) p = .ok (p + n) := by
  induction n generalizing p with
  | zero =>
    cases next with
    | nil => rfl
    | cons c next =>
      have hc : c ≠ 47 := fun e => h (congrArg some e)
      exact if_neg hc
  | succ n ih =>
    rw [List.replicate_succ, List.cons_append, skipSlashes, if_pos rfl, ih]
    congr 1
    omega

/-- A plain name has no separator. -/
lemma Plain.pass {name : List UInt8} (plain : Plain name) (c : UInt8) (mem : c ∈ name) :
    decide (c ≠ 58 ∧ c ≠ 47) = true := by
  have := plain c mem
  rw [IsSep, not_or] at this
  exact decide_eq_true this

/-- A plain name is its own first part. -/
lemma splitPath_plain {path : List UInt8} (plain : Plain path) : splitPath path = (path, []) := by
  rw [splitPath, List.takeWhile_eq_self_iff.2 plain.pass, List.dropWhile_eq_nil_iff.2 plain.pass]

/-- A path is split at its first colon or slash. -/
lemma splitPath_sep {name rest : List UInt8} {c : UInt8} (plain : Plain name) (sep : IsSep c) :
    splitPath (name ++ c :: rest) = (name, c :: rest) := by
  have stop : ¬ (fun d : UInt8 => decide (d ≠ 58 ∧ d ≠ 47)) c = true := by
    rw [IsSep] at sep
    rw [decide_eq_true_iff]
    tauto
  rw [splitPath, List.takeWhile_append_of_pos plain.pass, List.dropWhile_append_of_pos plain.pass,
    List.takeWhile_cons, if_neg stop, List.dropWhile_cons, if_neg stop, List.append_nil]

/-- Every path has no colon and no slash, or a first one. -/
lemma plain_or_sep (path : List UInt8) :
    Plain path ∨ ∃ name c rest, path = name ++ c :: rest ∧ Plain name ∧ IsSep c := by
  have nil : Plain [] := fun c mem => absurd mem List.not_mem_nil
  induction path with
  | nil => exact .inl nil
  | cons c path ih =>
    have cons {name : List UInt8} (sep : ¬ IsSep c) (plain : Plain name) : Plain (c :: name) := by
      intro d mem
      cases List.mem_cons.1 mem with
      | inl h => exact h ▸ sep
      | inr h => exact plain d h
    by_cases sep : IsSep c
    · exact .inr ⟨[], c, path, rfl, nil, sep⟩
    · cases ih with
      | inl plain => exact .inl (cons sep plain)
      | inr first =>
        obtain ⟨name, d, rest, rfl, plain, stop⟩ := first
        exact .inr ⟨c :: name, d, rest, rfl, cons sep plain, stop⟩

/-- Leading slashes are removed. -/
lemma dropWhile_slashes {sub : List UInt8} (next : sub.head? ≠ some 47) (n : Nat) :
    (List.replicate n 47 ++ sub).dropWhile (· = 47) = sub := by
  induction n with
  | zero =>
    cases sub with
    | nil => rfl
    | cons c sub =>
      have hc : c ≠ 47 := fun e => next (congrArg some e)
      exact List.dropWhile_cons_of_neg (by simpa using hc)
  | succ n ih =>
    rw [List.replicate_succ, List.cons_append, List.dropWhile_cons_of_pos (by simp)]
    exact ih

/-- The leading slashes of some characters. -/
lemma exists_slashes (rest : List UInt8) :
    ∃ n sub, rest = List.replicate n 47 ++ sub ∧ sub.head? ≠ some 47 := by
  induction rest with
  | nil => exact ⟨0, [], rfl, by simp⟩
  | cons c rest ih =>
    by_cases hc : c = 47
    · obtain ⟨n, sub, rfl, next⟩ := ih
      exact ⟨n + 1, sub, by rw [hc, List.replicate_succ, List.cons_append], next⟩
    · exact ⟨0, c :: rest, rfl, fun h => hc (Option.some.inj h)⟩

/-- Every path has a form. -/
lemma exists_pathForm (path : List UInt8) : ∃ start sub, PathForm path start sub := by
  cases plain_or_sep path with
  | inl plain => exact ⟨.curdir, path, .bare plain⟩
  | inr first =>
    obtain ⟨name, c, rest, rfl, plain, sep⟩ := first
    cases sep with
    | inl colon =>
      obtain ⟨n, sub, rfl, next⟩ := exists_slashes rest
      subst colon
      cases name with
      | nil => exact ⟨.curfs, sub, .curfs rfl next⟩
      | cons d name => exact ⟨.device (d :: name), sub, .device plain (List.cons_ne_nil _ _) rfl next⟩
    | inr slash =>
      subst slash
      cases name with
      | nil =>
        obtain ⟨n, sub, rfl, next⟩ := exists_slashes rest
        exact ⟨.bootfs, sub, .bootfs rfl next⟩
      | cons d name => exact ⟨.curdir, _, .relative plain (List.cons_ne_nil _ _) rfl⟩

/-- `pathStart` computes the form. -/
lemma PathForm.pathStart_eq {path : List UInt8} {start : PathStart} {sub : List UInt8}
    (form : PathForm path start sub) : pathStart path = (start, sub) := by
  have nil : Plain [] := fun c mem => absurd mem List.not_mem_nil
  cases form with
  | bare plain =>
    rw [pathStart, splitPath_plain plain]
    cases path <;> rfl
  | @relative name rest plain some eq =>
    cases name with
    | nil => exact absurd rfl some
    | cons d name =>
      rw [pathStart, eq, splitPath_sep plain (.inr rfl)]
      rfl
  | @device name _ n plain some eq next =>
    cases name with
    | nil => exact absurd rfl some
    | cons d name =>
      rw [pathStart, eq, splitPath_sep plain (.inl rfl)]
      exact congrArg _ (dropWhile_slashes next n)
  | @bootfs _ n eq next =>
    rw [pathStart, eq, ← List.nil_append (47 :: _), splitPath_sep nil (.inr rfl)]
    exact congrArg _ (dropWhile_slashes next n)
  | @curfs _ n eq next =>
    rw [pathStart, eq, ← List.nil_append (58 :: _), splitPath_sep nil (.inl rfl)]
    exact congrArg _ (dropWhile_slashes next n)

/-- A path has one starting point. -/
lemma PathForm.start_eq {path : List UInt8} {start start' : PathStart} {sub sub' : List UInt8}
    (form : PathForm path start sub) (form' : PathForm path start' sub') : start' = start ∧ sub' = sub := by
  have eq := form.pathStart_eq.symm.trans form'.pathStart_eq
  exact ⟨(congrArg Prod.fst eq).symm, (congrArg Prod.snd eq).symm⟩

/-- Only a subpath from the current directory can begin with a slash. -/
lemma PathForm.head_ne {path : List UInt8} {start : PathStart} {sub : List UInt8} (form : PathForm path start sub)
    (h : start ≠ .curdir) : sub.head? ≠ some 47 := by
  cases form with
  | bare => exact absurd rfl h
  | relative => exact absurd rfl h
  | device _ _ _ next => exact next
  | bootfs _ next => exact next
  | curfs _ next => exact next

/-- The rest of a path is a suffix of it. -/
lemma PathForm.suffix {path : List UInt8} {start : PathStart} {sub : List UInt8} (form : PathForm path start sub) :
    sub <:+ path := by
  have suffix := pathStart_suffix path
  rw [form.pathStart_eq] at suffix
  exact suffix

section

variable {D V F σ : Type} [DecidableEq V] (ops : Vops D V F σ)

/-- What `getdevice` does to a buffer with a path of a form: the subpath it hands out is the one of the form, in the
buffer before and after, and the vnode is the one at which paths of the form start. -/
def Follows (path : List UInt8) (start : PathStart) (sub : List UInt8) : Prop :=
  ∃ buf p, getdeviceAt ops (path ++ [0]) = (do let v ← startVnode ops start; pure (buf, p, v)) ∧
    p ≤ path.length ∧ (path ++ [0]).drop p = sub ++ [0] ∧ buf.drop p = sub ++ [0]

/-- Without a leading separator the path starts at the current directory. -/
lemma follows_relative {path : List UInt8} (h : ∃ i : ℤ, i ≠ 0 ∧ firstSep (path ++ [0]) 0 = .ok (-1, i)) :
    Follows ops path .curdir path := by
  obtain ⟨i, hi, first⟩ := h
  refine ⟨path ++ [0], 0, ?_, Nat.zero_le _, rfl, rfl⟩
  rw [getdeviceAt, first]
  exact if_pos ⟨by decide, hi⟩

/-- What is left of a path behind its separator. -/
lemma drop_sep (name rest : List UInt8) (c : UInt8) : (name ++ c :: rest).drop (name.length + 1) = rest := by
  rw [List.append_cons]
  exact List.drop_left' (by rw [List.length_append, List.length_singleton])

/-- What is left of a path behind the slashes that follow its separator. -/
lemma drop_slashes (name rest : List UInt8) (c : UInt8) (n : Nat) :
    (name ++ c :: (List.replicate n 47 ++ rest)).drop (name.length + n + 1) = rest := by
  rw [show name.length + n + 1 = name.length + 1 + n by omega, ← List.drop_drop, drop_sep]
  exact List.drop_left' List.length_replicate

/-- A name and a colon start at that device. -/
lemma follows_device {name sub : List UInt8} {n : Nat} (plain : Plain name) (nonempty : name ≠ []) (zero : 0 ∉ name)
    (next : sub.head? ≠ some 47) :
    Follows ops (name ++ 58 :: (List.replicate n 47 ++ sub)) (.device name) sub := by
  have pos : 0 < name.length := List.length_pos_iff.2 nonempty
  have ends : (name ++ 58 :: (List.replicate n 47 ++ sub)) ++ [0] =
      name ++ 58 :: (List.replicate n 47 ++ (sub ++ [0])) := by simp
  have first : firstSep (name ++ 58 :: (List.replicate n 47 ++ (sub ++ [0]))) 0 = .ok ((name.length : ℤ), -1) := by
    rw [firstSep_append plain zero, zero_add]
    rfl
  have cut : (name ++ 58 :: (List.replicate n 47 ++ (sub ++ [0]))).set name.length 0 =
      name ++ 0 :: (List.replicate n 47 ++ (sub ++ [0])) := by
    rw [List.set_append_right _ _ le_rfl, Nat.sub_self]
    rfl
  -- the overwritten colon ends the name of the device
  have name_eq : cstring (name ++ 0 :: (List.replicate n 47 ++ (sub ++ [0]))) = name := by
    have keep : ∀ c ∈ name, decide (c ≠ 0) = true := fun c mem => decide_eq_true fun h => zero (h ▸ mem)
    rw [cstring, List.takeWhile_append_of_pos keep]
    exact List.append_nil name
  rw [Follows, ends]
  refine ⟨name ++ 0 :: (List.replicate n 47 ++ (sub ++ [0])), name.length + n + 1, ?_, ?_, drop_slashes ..,
    drop_slashes ..⟩
  · have fwd : ¬ ((name.length : ℤ) < 0 ∧ (-1 : ℤ) ≠ 0) := fun h => absurd h.1 (by omega)
    have colon : (name.length : ℤ) > 0 := by omega
    rw [getdeviceAt, first, orHalt_andThen]
    simp only [if_neg fwd, if_pos colon, Int.toNat_natCast, cut, drop_sep, skipSlashes_run next, orHalt_andThen,
      name_eq]
    rfl
  · rw [List.length_append, List.length_cons, List.length_append, List.length_replicate]
    omega

/-- The two forms with a leading separator. -/
lemma follows_lead {c : UInt8} {sub : List UInt8} {n : Nat} {start : PathStart}
    (h : c = 47 ∧ start = .bootfs ∨ c = 58 ∧ start = .curfs) (next : sub.head? ≠ some 47) :
    Follows ops (c :: (List.replicate n 47 ++ sub)) start sub := by
  have ends : c :: (List.replicate n 47 ++ sub) ++ [0] = c :: (List.replicate n 47 ++ (sub ++ [0])) := by simp
  have drop := drop_slashes [] (sub ++ [0]) c n
  rw [List.nil_append, List.length_nil, Nat.zero_add] at drop
  rw [Follows, ends]
  refine ⟨c :: (List.replicate n 47 ++ (sub ++ [0])), n + 1, ?_, ?_, drop, drop⟩
  · have skip : skipSlashes ((c :: (List.replicate n 47 ++ (sub ++ [0]))).drop 1) 0 = .ok n :=
      (skipSlashes_run next n 0).trans (congrArg _ (Nat.zero_add n))
    cases h with
    | inl h =>
      obtain ⟨rfl, rfl⟩ := h
      have first (rest : List UInt8) : firstSep (47 :: rest) 0 = .ok (-1, 0) := rfl
      have lead (rest : List UInt8) : leadVnode ops (47 :: rest) = startVnode ops .bootfs := rfl
      rw [getdeviceAt, skip, first, lead]
      rfl
    | inr h =>
      obtain ⟨rfl, rfl⟩ := h
      have first (rest : List UInt8) : firstSep (58 :: rest) 0 = .ok (0, -1) := rfl
      have lead (rest : List UInt8) : leadVnode ops (58 :: rest) = startVnode ops .curfs := rfl
      rw [getdeviceAt, skip, first, lead]
      rfl
  · rw [List.length_cons, List.length_append, List.length_replicate]
    omega

/-- A path of a form is taken apart as the form says. -/
lemma follows (path : CStr) {start : PathStart} {sub : List UInt8} (form : PathForm path.val start sub) :
    Follows ops path.val start sub := by
  obtain ⟨path, zero⟩ := path
  cases form with
  | bare plain =>
    refine follows_relative ops ⟨-1, by decide, ?_⟩
    rw [firstSep_append plain zero]
    rfl
  | @relative name rest plain nonempty eq =>
    have pos : 0 < name.length := List.length_pos_iff.2 nonempty
    subst eq
    refine follows_relative ops ⟨name.length, by omega, ?_⟩
    rw [List.append_assoc, firstSep_append plain fun mem => zero (List.mem_append_left _ mem), zero_add]
    rfl
  | @device name _ n plain nonempty eq next =>
    subst eq
    exact follows_device ops plain nonempty (fun mem => zero (List.mem_append_left _ mem)) next
  | bootfs eq next =>
    subst eq
    exact follows_lead ops (.inl ⟨rfl, rfl⟩) next
  | curfs eq next =>
    subst eq
    exact follows_lead ops (.inr ⟨rfl, rfl⟩) next

/-- Every string has exactly one form. On a buffer that ends with its terminator, `getdevice` starts where paths of the
form start, and hands out the subpath of the form: a suffix of the string, in the buffer before and after, which begins
with a slash for relative paths at most. -/
theorem getdevice_grammar (path : CStr) :
    ∃ start sub, PathForm path.val start sub ∧
      (∀ start' sub', PathForm path.val start' sub' → start' = start ∧ sub' = sub) ∧
      (start ≠ .curdir → sub.head? ≠ some 47) ∧ sub <:+ path.val ∧
      ∃ buf p, getdeviceAt ops (path.val ++ [0]) = (do let v ← startVnode ops start; pure (buf, p, v)) ∧
        p ≤ path.val.length ∧ (path.val ++ [0]).drop p = sub ++ [0] ∧ buf.drop p = sub ++ [0] := by
  obtain ⟨start, sub, form⟩ := exists_pathForm path.val
  exact ⟨start, sub, form, fun _ _ => form.start_eq, form.head_ne, form.suffix, follows ops path form⟩

/-- On strings, `getdeviceAt` finds the vnode of `getdevice` and the subpath of `pathStart`. -/
lemma getdeviceAt_eq (path : CStr) :
    ∃ buf p, getdeviceAt ops (path.val ++ [0]) = (do let v ← getdevice ops path.val; pure (buf, p, v)) ∧
      cstring (buf.drop p) = (pathStart path.val).2 := by
  obtain ⟨start, sub, form⟩ := exists_pathForm path.val
  obtain ⟨buf, p, run, -, -, rest⟩ := follows ops path form
  have zero : 0 ∉ sub := fun mem => path.2 (form.suffix.subset mem)
  refine ⟨buf, p, ?_, ?_⟩
  · rw [run, getdevice_eq_startVnode, form.pathStart_eq]
  · rw [rest, form.pathStart_eq]
    exact cstring_append_zeros ⟨sub, zero⟩ 1

end

end PDS.Vfs
