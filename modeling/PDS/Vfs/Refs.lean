import PDS.Vfs.Path

/-!
# Conservation of references

Every call of the VFS layer changes the reference and open counts of the vnodes by the references that it hands to its
caller or stores in `t_cwd`, and takes back the others (`vfs_conserves`).
-/

namespace PDS.Vfs
open Kern Sfs

variable {D V F σ : Type} [DecidableEq V]

/-- The reference that `t_cwd` holds. -/
def held (cwd : Option V) : V → ℤ := (cwd.map fun v => Pi.single v 1).getD 0

/-- The counts change by `ref` and `opn`. -/
structure Delta (w w' : World D V F σ) (ref opn : V → ℤ) : Prop where
  refcount : w'.refcount = w.refcount + ref
  opencount : w'.opencount = w.opencount + opn
  cwd : w'.cwd = w.cwd

/-- A command that hands nothing out. -/
def Quiet {α : Type} (m : VfsM D V F σ α) : Prop := ∀ w r w', m w = .ok (r, w') → Delta w w' 0 0

/-- A command that hands back exactly one reference when it returns a vnode, and none on error. -/
def Hands {α : Type} (vn : α → V) (m : VfsM D V F σ α) : Prop :=
  ∀ w, Prog.wlp m (fun a w' => Delta w w' (Pi.single (vn a) 1) 0) (fun _ w' => Delta w w' 0 0) w

/-- What the VFS layer relies on. The last reference to a vnode of a file system takes the vnode with it when it is
reclaimed; a device stays when it is not in use (C `dev_reclaim`), and nothing is said about that here. -/
structure Vops.Lawful (ops : Vops D V F σ) : Prop where
  getroot : ∀ fs, Hands id (ops.getroot fs)
  getroot_ok : ∀ fs w e w', ops.getroot fs w ≠ .ok (.error e, w')
  lookup : ∀ v path, Hands id (ops.lookup v path)
  lookparent : ∀ v path buflen, Hands Prod.fst (ops.lookparent v path buflen)
  creat : ∀ v name excl mode, Hands id (ops.creat v name excl mode)
  open' : ∀ v openflags, Quiet (ops.open' v openflags)
  close : ∀ v, Quiet (ops.close v)
  reclaim : ∀ v, ops.fs v ≠ none → ∀ w r w', w.refcount v = 1 → ops.reclaim v w = .ok (r, w') →
    Delta w w' (-Pi.single v 1) 0
  truncate : ∀ v len, Quiet (ops.truncate v len)
  remove : ∀ v name, Quiet (ops.remove v name)
  rename : ∀ v name v' name', Quiet (ops.rename v name v' name')
  link : ∀ v name v', Quiet (ops.link v name v')
  symlink : ∀ v name contents, Quiet (ops.symlink v name contents)
  readlink : ∀ v, Quiet (ops.readlink v)
  mkdir : ∀ v name mode, Quiet (ops.mkdir v name mode)
  rmdir : ∀ v name, Quiet (ops.rmdir v name)
  gettype : ∀ v, Quiet (ops.gettype v)
  namefile : ∀ v, Quiet (ops.namefile v)
  uiomove : ∀ data, Quiet (ops.uiomove data)

/-- The table of devices keeps a reference to each device, beyond the one of `t_cwd` and those in `used`. -/
def World.Spare (w : World D V F σ) (ops : Vops D V F σ) (used : V → ℤ) : Prop :=
  ∀ v, ops.fs v = none → held w.cwd v + used v < w.refcount v

section

variable {ops : Vops D V F σ} {w w' w'' : World D V F σ} {ref ref' opn opn' : V → ℤ} {v : V}

omit [DecidableEq V] in
/-- Nothing has changed. -/
lemma Delta.refl : Delta w w 0 0 := ⟨(add_zero _).symm, (add_zero _).symm, rfl⟩

omit [DecidableEq V] in
/-- Changes add up. -/
lemma Delta.trans (h : Delta w w' ref opn) (h' : Delta w' w'' ref' opn') : Delta w w'' (ref + ref') (opn + opn') where
  refcount := by rw [h'.refcount, h.refcount, add_assoc]
  opencount := by rw [h'.opencount, h.opencount, add_assoc]
  cwd := h'.cwd.trans h.cwd

omit [DecidableEq V] in
/-- Changes are equal if their amounts are. -/
lemma Delta.congr (h : Delta w w' ref opn) (er : ref = ref') (eo : opn = opn') : Delta w w' ref' opn' := er ▸ eo ▸ h

/-- What is taken is given back. -/
lemma Delta.back (h : Delta w w' ref opn) (h' : Delta w' w'' (-Pi.single v 1) 0) :
    Delta w w'' (ref - Pi.single v 1) opn :=
  (h.trans h').congr (sub_eq_add_neg ..).symm (add_zero _)

/-- The current directory's share is never negative. -/
lemma held_nonneg (cwd : Option V) (v : V) : 0 ≤ held cwd v := by
  cases cwd with
  | none => exact le_rfl
  | some u =>
    change 0 ≤ (Pi.single u 1 : V → ℤ) v
    exact (Pi.single_nonneg.2 zero_le_one : (0 : V → ℤ) ≤ Pi.single u 1) v

/-- A reference that has been taken is not the last one of a device. -/
lemma Delta.not_last (h : Delta w w' ref opn) (spare : w.Spare ops 0) (taken : 1 ≤ ref v) :
    ops.fs v = none → 1 < w'.refcount v := by
  intro device
  have more := spare v device
  have pos := held_nonneg w.cwd v
  rw [h.refcount, Pi.add_apply]
  rw [Pi.zero_apply] at more
  omega

/-- What only gains references keeps a spare one. -/
lemma Delta.spare (h : Delta w w' ref opn) (spare : w.Spare ops 0) (pos : 0 ≤ ref) : w'.Spare ops 0 := by
  intro v device
  have more := spare v device
  have nonneg : 0 ≤ ref v := pos v
  rw [h.refcount, h.cwd, Pi.add_apply]
  omega

omit [DecidableEq V] in
/-- The rule for a quiet call. -/
lemma Quiet.wlp {α : Type} {m : VfsM D V F σ α} (h : Quiet m) :
    Prog.wlp m (fun _ w' => Delta w w' 0 0) (fun _ w' => Delta w w' 0 0) w :=
  Prog.wlp_iff.2 fun r w' run => ⟨fun _ _ => h w r w' run, fun _ _ => h w r w' run⟩

omit [DecidableEq V] in
/-- A failure is quiet. -/
lemma quiet_fail {α : Type} (e : Nat) : Quiet (Prog.fail e : VfsM D V F σ α) := by
  intro w r w' run
  cases run
  exact Delta.refl

omit [DecidableEq V] in
/-- The rule of `VOP_` calls: the check, then the operation. -/
lemma wlp_vop {α : Type} {m : VfsM D V F σ α} {Q : α → World D V F σ → Prop} {E : Nat → World D V F σ → Prop}
    {opstr : String} (h : Prog.wlp m Q E w) : Prog.wlp (vop v opstr m) Q E w := by
  refine Prog.wlp_andThen_iff.2 ?_
  refine Prog.wlp_andThen_iff.2 (Prog.wlp_get_iff.2 ?_)
  refine Prog.wlp_andThen_iff.2 (Prog.wlp.require fun _ => ?_)
  refine Prog.wlp_andThen_iff.2 (Prog.wlp.require fun _ => ?_)
  exact Prog.wlp.require fun _ => h

omit [DecidableEq V] in
/-- A `VOP_` call of a quiet operation is quiet. -/
lemma Quiet.vop {α : Type} {m : VfsM D V F σ α} (h : Quiet m) (opstr : String) :
    Quiet (Vfs.vop v opstr m) := by
  intro w r w' run
  obtain ⟨ok, err⟩ := Prog.wlp_iff.1 (wlp_vop h.wlp) r w' run
  cases r with
  | error e => exact err e rfl
  | ok a => exact ok a rfl

/-- A `VOP_` call of an operation that hands out a vnode does so too. -/
lemma Hands.vop {α : Type} {m : VfsM D V F σ α} {vn : α → V} (h : Hands vn m) (opstr : String) :
    Hands vn (Vfs.vop v opstr m) := fun w => wlp_vop (h w)

/-- The rule of `VOP_INCREF`. -/
lemma wlp_incref : Prog.wlp (vnodeIncref v) (fun _ w' => Delta w w' (Pi.single v 1) 0) (fun _ _ => False) w :=
  Prog.wlp_modify_iff.2 ⟨rfl, (add_zero _).symm, rfl⟩

/-- The rule of `VOP_DECREF`. -/
lemma wlp_decref (law : ops.Lawful) (last : ops.fs v = none → 1 < w.refcount v) :
    Prog.wlp (vnodeDecref ops v) (fun _ w' => Delta w w' (-Pi.single v 1) 0) (fun _ _ => False) w := by
  refine Prog.wlp_andThen_iff.2 (Prog.wlp_get_iff.2 ?_)
  refine Prog.wlp_andThen_iff.2 (Prog.wlp.require fun pos => ?_)
  split
  next => exact Prog.wlp_modify_iff.2 ⟨sub_eq_add_neg .., (add_zero _).symm, rfl⟩
  next one =>
    have one : w.refcount v = 1 := by omega
    have fs : ops.fs v ≠ none := by
      intro device
      have more := last device
      omega
    have reclaimed : Prog.wlp (ops.reclaim v) (fun _ w' => Delta w w' (-Pi.single v 1) 0)
        (fun _ w' => Delta w w' (-Pi.single v 1) 0) w :=
      Prog.wlp_iff.2 fun r w' run => ⟨fun _ _ => law.reclaim v fs w r w' one run, fun _ _ => law.reclaim v fs w r w' one run⟩
    exact Prog.wlp_andThen_iff.2 (Prog.wlp_attempt_iff.2 (wlp_vop reclaimed))

/-- What has been taken is given back. -/
lemma wlp_giveBack (law : ops.Lawful) (spare : w.Spare ops 0) (h : Delta w w' ref opn) (taken : 1 ≤ ref v) :
    Prog.wlp (vnodeDecref ops v) (fun _ w'' => Delta w w'' (ref - Pi.single v 1) opn) (fun _ _ => False) w' :=
  (wlp_decref law (h.not_last spare taken)).mono (fun _ _ d => h.back d) (fun _ _ => id)

/-- The rule of `VOP_INCOPEN`. -/
lemma wlp_incopen : Prog.wlp (vnodeIncopen v) (fun _ w' => Delta w w' 0 (Pi.single v 1)) (fun _ _ => False) w :=
  Prog.wlp_modify_iff.2 ⟨(add_zero _).symm, rfl, rfl⟩

/-- The rule of `VOP_DECOPEN`. -/
lemma wlp_decopen (law : ops.Lawful) :
    Prog.wlp (vnodeDecopen ops v) (fun _ w' => Delta w w' 0 (-Pi.single v 1)) (fun _ _ => False) w := by
  refine Prog.wlp_andThen_iff.2 (Prog.wlp_get_iff.2 ?_)
  refine Prog.wlp_andThen_iff.2 (Prog.wlp.require fun pos => ?_)
  refine Prog.wlp_andThen_iff.2 (Prog.wlp_modify_iff.2 ?_)
  have less : Delta w { w with opencount := w.opencount - Pi.single v 1 } 0 (-Pi.single v 1) :=
    ⟨(add_zero _).symm, sub_eq_add_neg .., rfl⟩
  split
  next => exact less
  next =>
    have closed := ((law.close v).vop (v := v) "close").wlp (w := { w with opencount := w.opencount - Pi.single v 1 })
    refine Prog.wlp_andThen_iff.2 (Prog.wlp_attempt_iff.2 (closed.mono ?_ ?_))
    · exact fun _ _ d => (less.trans d).congr (add_zero _) (add_zero _)
    · exact fun _ _ d => (less.trans d).congr (add_zero _) (add_zero _)

/-- One reference counts 1 at its vnode. -/
lemma single_pos (v : V) : 1 ≤ (Pi.single v 1 : V → ℤ) v := by rw [Pi.single_eq_same]

/-- One reference counts nowhere less than 0. -/
lemma single_nonneg (v : V) : (0 : V → ℤ) ≤ Pi.single v 1 := Pi.single_nonneg.2 zero_le_one

/-- A command is made on a vnode that has been taken, and the vnode is given back. -/
lemma wlp_thenDecref {α : Type} {m : VfsM D V F σ α} {more : α → V → ℤ} (law : ops.Lawful) (spare : w.Spare ops 0)
    (h : Delta w w' ref opn) (taken : 1 ≤ ref v) (pos : ∀ a, 0 ≤ more a)
    (hm : Prog.wlp m (fun a w'' => Delta w' w'' (more a) 0) (fun _ w'' => Delta w' w'' 0 0) w') :
    Prog.wlp (Prog.andAlways m (vnodeDecref ops v)) (fun a w'' => Delta w w'' (ref - Pi.single v 1 + more a) opn)
      (fun _ w'' => Delta w w'' (ref - Pi.single v 1) opn) w' := by
  refine hm.always (fun a w₂ d => ?_) (fun _ w₂ d => ?_)
  · have both : Delta w w₂ (ref + more a) opn := (h.trans d).congr rfl (add_zero _)
    have nonneg : 0 ≤ more a v := pos a v
    have still : 1 ≤ (ref + more a) v := by
      rw [Pi.add_apply]
      omega
    refine (wlp_giveBack law spare both still).mono (fun _ _ d => ?_) (fun _ _ => False.elim)
    exact d.congr (sub_add_eq_add_sub ..).symm rfl
  · have same : Delta w w₂ ref opn := (h.trans d).congr (add_zero _) (add_zero _)
    exact (wlp_giveBack law spare same taken).mono (fun _ _ => id) (fun _ _ => False.elim)

/-- A command that hands out a vnode is made on one that has been taken. -/
lemma wlp_hands_thenDecref {α : Type} {m : VfsM D V F σ α} {vn : α → V} (law : ops.Lawful) (spare : w.Spare ops 0)
    (h : Delta w w' (Pi.single v 1) 0) (hm : Hands vn m) :
    Prog.wlp (Prog.andAlways m (vnodeDecref ops v)) (fun a w'' => Delta w w'' (Pi.single (vn a) 1) 0)
      (fun _ w'' => Delta w w'' 0 0) w' := by
  refine (wlp_thenDecref law spare h (single_pos v) (fun a => single_nonneg (vn a)) (hm w')).mono ?_ ?_
  · exact fun _ _ d => d.congr (by rw [sub_self, zero_add]) rfl
  · exact fun _ _ d => d.congr (sub_self _) rfl

/-- A command that hands nothing out is made on a vnode that has been taken. -/
lemma wlp_quiet_thenDecref {α : Type} {m : VfsM D V F σ α} (law : ops.Lawful) (spare : w.Spare ops 0)
    (h : Delta w w' (Pi.single v 1) 0) (hm : Quiet m) :
    Prog.wlp (Prog.andAlways m (vnodeDecref ops v)) (fun _ w'' => Delta w w'' 0 0) (fun _ w'' => Delta w w'' 0 0) w' := by
  have none (_ : α) : (0 : V → ℤ) ≤ 0 := le_rfl
  refine (wlp_thenDecref law spare h (single_pos v) none hm.wlp).mono ?_ ?_
  · exact fun _ _ d => d.congr (by rw [sub_self, zero_add]) rfl
  · exact fun _ _ d => d.congr (sub_self _) rfl

/-- The rule for a vnode that is handed out with a reference. -/
lemma wlp_takeVnode : Prog.wlp (do vnodeIncref v; pure v : VfsM D V F σ V)
    (fun v w' => Delta w w' (Pi.single v 1) 0) (fun _ w' => Delta w w' 0 0) w :=
  Prog.wlp_andThen_iff.2 (wlp_incref.mono (fun _ _ => id) (fun _ _ => False.elim))

/-- The rule of `vfs_getcurdir`. -/
lemma wlp_getcurdir : Prog.wlp (vfsGetcurdir : VfsM D V F σ V)
    (fun v w' => Delta w w' (Pi.single v 1) 0) (fun _ w' => Delta w w' 0 0) w := by
  refine Prog.wlp_andThen_iff.2 (Prog.wlp_get_iff.2 ?_)
  split
  next => exact Delta.refl
  next => exact wlp_takeVnode

/-- The rule of `vfs_getroot`. -/
lemma wlp_getrootVnode (law : ops.Lawful) (devname : List UInt8) : Prog.wlp (vfsGetrootVnode ops devname)
    (fun v w' => Delta w w' (Pi.single v 1) 0) (fun _ w' => Delta w w' 0 0) w := by
  refine Prog.wlp_andThen_iff.2 (Prog.wlp_get_iff.2 ?_)
  split
  next => exact Prog.wlp_halt
  next => exact Delta.refl
  next fs _ => exact law.getroot fs w
  next => exact wlp_takeVnode

/-- The rule of `getdevice`. -/
lemma wlp_getdevice (law : ops.Lawful) (spare : w.Spare ops 0) (path : List UInt8) : Prog.wlp (getdevice ops path)
    (fun v w' => Delta w w' (Pi.single v 1) 0) (fun _ w' => Delta w w' 0 0) w := by
  rw [getdevice]
  split
  next => exact wlp_getcurdir
  next name _ => exact wlp_getrootVnode law name
  next =>
    refine Prog.wlp_andThen_iff.2 (Prog.wlp_get_iff.2 ?_)
    split
    next => exact Delta.refl
    next => exact wlp_takeVnode
  next =>
    refine wlp_getcurdir.andThen (fun vn w₁ d => ?_) (fun _ _ => id)
    split
    next => exact Prog.wlp_halt
    next fs _ =>
      have root := law.getroot fs w₁
      refine Prog.wlp_andThen_iff.2 (Prog.wlp_iff.2 fun r w₂ run => ⟨?_, ?_⟩)
      · rintro startvn rfl
        have both := d.trans ((Prog.wlp_iff.1 root _ _ run).1 startvn rfl)
        have nonneg : (0 : ℤ) ≤ (Pi.single startvn 1 : V → ℤ) vn := single_nonneg startvn vn
        have taken : 1 ≤ (Pi.single vn 1 + Pi.single (id startvn) 1 : V → ℤ) vn := by
          rw [Pi.add_apply, Pi.single_eq_same]
          exact le_add_of_nonneg_right nonneg
        refine (wlp_giveBack law spare both taken).andThen (fun _ _ d => ?_) (fun _ _ => False.elim)
        exact d.congr (add_sub_cancel_left ..) (add_zero _)
      · rintro e rfl
        exact absurd run (law.getroot_ok fs w₁ e w₂)

/-- The rule of `vfs_lookparent`. -/
lemma wlp_lookparent (law : ops.Lawful) (spare : w.Spare ops 0) (path : List UInt8) (buflen : Nat) :
    Prog.wlp (vfsLookparent ops path buflen) (fun p w' => Delta w w' (Pi.single p.1 1) 0)
      (fun _ w' => Delta w w' 0 0) w := by
  refine (wlp_getdevice law spare path).andThen (fun startvn w₁ d => ?_) (fun _ _ => id)
  refine wlp_hands_thenDecref law spare d ?_
  split
  next => exact fun w => Prog.wlp_fail_iff.2 Delta.refl
  next => exact (law.lookparent _ _ _).vop "lookparent"

/-- The rule of `vfs_lookup`. -/
lemma wlp_lookup (law : ops.Lawful) (spare : w.Spare ops 0) (path : List UInt8) :
    Prog.wlp (vfsLookup ops path) (fun v w' => Delta w w' (Pi.single v 1) 0) (fun _ w' => Delta w w' 0 0) w := by
  refine (wlp_getdevice law spare path).andThen (fun startvn w₁ d => ?_) (fun _ _ => id)
  split
  next => exact d
  next => exact wlp_hands_thenDecref law spare d ((law.lookup _ _).vop "lookup")

/-- The rule for the vnode that `vfs_open` finds or creates. -/
lemma wlp_openVnode (law : ops.Lawful) (spare : w.Spare ops 0) (path : List UInt8) (openflags : BitVec 32)
    (mode : Nat) : Prog.wlp (openVnode ops path openflags mode) (fun v w' => Delta w w' (Pi.single v 1) 0)
      (fun _ w' => Delta w w' 0 0) w := by
  rw [openVnode]
  split
  next =>
    refine (wlp_lookparent law spare path nameSize).andThen (fun dir w₁ d => ?_) (fun _ _ => id)
    exact wlp_hands_thenDecref law spare d ((law.creat _ _ _ _).vop "creat")
  next => exact wlp_lookup law spare path

/-- The rule for the truncation in `vfs_open`. -/
lemma wlp_openTrunc (law : ops.Lawful) (spare : w.Spare ops 0) (canwrite : Bool)
    (h : Delta w w' (Pi.single v 1) (Pi.single v 1)) :
    Prog.wlp (openTrunc ops v canwrite) (fun _ w'' => Delta w w'' (Pi.single v 1) (Pi.single v 1))
      (fun _ w'' => Delta w w'' 0 0) w' := by
  have truncate : Quiet (if canwrite then Vfs.vop v "truncate" (ops.truncate v 0) else Prog.fail einval) := by
    split
    next => exact (law.truncate v 0).vop "truncate"
    next => exact quiet_fail einval
  refine Prog.wlp_andThen_iff.2 (Prog.wlp_attempt_iff.2 (truncate.wlp.mono ?_ ?_))
  · exact fun _ w₂ d => (h.trans d).congr (add_zero _) (add_zero _)
  · intro e w₂ d
    refine (wlp_decopen law).andThen (fun _ w₃ d' => ?_) (fun _ _ => False.elim)
    have closed : Delta w w₃ (Pi.single v 1) 0 := ((h.trans d).trans d').congr
      (by rw [add_zero, add_zero]) (by rw [add_zero, add_neg_cancel])
    refine (wlp_giveBack law spare closed (single_pos v)).andThen (fun _ _ d => ?_) (fun _ _ => False.elim)
    exact d.congr (sub_self _) rfl

/-- The rule for the rest of `vfs_open`. -/
lemma wlp_openAt (law : ops.Lawful) (spare : w.Spare ops 0) (openflags : BitVec 32) (canwrite : Bool)
    (h : Delta w w' (Pi.single v 1) 0) :
    Prog.wlp (openAt ops v openflags canwrite) (fun u w'' => Delta w w'' (Pi.single u 1) (Pi.single u 1))
      (fun _ w'' => Delta w w'' 0 0) w' := by
  refine Prog.wlp_andThen_iff.2 (Prog.wlp_attempt_iff.2 (((law.open' v openflags).vop "open").wlp.mono ?_ ?_))
  · intro _ w₂ d
    refine wlp_incopen.andThen (fun _ w₃ d' => ?_) (fun _ _ => False.elim)
    have opened : Delta w w₃ (Pi.single v 1) (Pi.single v 1) := ((h.trans d).trans d').congr
      (by rw [add_zero, add_zero]) (by rw [add_zero, zero_add])
    have trunc : Prog.wlp (if openflags &&& oTrunc ≠ 0 then openTrunc ops v canwrite else pure ())
        (fun _ w'' => Delta w w'' (Pi.single v 1) (Pi.single v 1)) (fun _ w'' => Delta w w'' 0 0) w₃ := by
      split
      next => exact wlp_openTrunc law spare canwrite opened
      next => exact opened
    exact trunc.andThen (fun _ _ => id) (fun _ _ => id)
  · intro e w₂ d
    have same : Delta w w₂ (Pi.single v 1) 0 := (h.trans d).congr (add_zero _) (add_zero _)
    refine (wlp_giveBack law spare same (single_pos v)).andThen (fun _ _ d => ?_) (fun _ _ => False.elim)
    exact d.congr (sub_self _) rfl

/-- The rule of `vfs_open`. -/
lemma wlp_open (law : ops.Lawful) (spare : w.Spare ops 0) (path : List UInt8) (openflags : BitVec 32) (mode : Nat) :
    Prog.wlp (vfsOpen ops path openflags mode) (fun v w' => Delta w w' (Pi.single v 1) (Pi.single v 1))
      (fun _ w' => Delta w w' 0 0) w := by
  rw [vfsOpen]
  split
  next => exact Delta.refl
  next canwrite _ =>
    refine (wlp_openVnode law spare path openflags mode).andThen (fun vn w₁ d => ?_) (fun _ _ => id)
    exact wlp_openAt law spare openflags canwrite d

/-- The rule of `vfs_close`. -/
lemma wlp_close (law : ops.Lawful) (last : ops.fs v = none → 1 < w.refcount v) :
    Prog.wlp (vfsClose ops v) (fun _ w' => Delta w w' (-Pi.single v 1) (-Pi.single v 1)) (fun _ _ => False) w := by
  refine (wlp_decopen law).andThen (fun _ w₁ d => ?_) (fun _ _ => id)
  have last' : ops.fs v = none → 1 < w₁.refcount v := by
    rw [d.refcount, add_zero]
    exact last
  refine (wlp_decref law last').mono (fun _ _ d' => ?_) (fun _ _ => id)
  exact (d.trans d').congr (zero_add _) (add_zero _)

/-- The rule for the calls that work in a parent directory. -/
lemma wlp_onParent {call : V → List UInt8 → VfsM D V F σ Unit} (law : ops.Lawful) (spare : w.Spare ops 0)
    (path : List UInt8) (quiet : ∀ dir name, Quiet (call dir name)) :
    Prog.wlp (onParent ops path call) (fun _ w' => Delta w w' 0 0) (fun _ w' => Delta w w' 0 0) w := by
  refine (wlp_lookparent law spare path nameSize).andThen (fun dir w₁ d => ?_) (fun _ _ => id)
  exact wlp_quiet_thenDecref law spare d (quiet dir.1 dir.2)

/-- The rule for the calls that work in two of them. -/
lemma wlp_onBoth [DecidableEq F] {call : V → List UInt8 → VfsM D V F σ Unit} (law : ops.Lawful)
    (spare : w.Spare ops 0) (newpath : List UInt8) (quiet : ∀ dir name, Quiet (call dir name))
    (h : Delta w w' (Pi.single v 1) 0) :
    Prog.wlp (onBoth ops v newpath call) (fun _ w'' => Delta w w'' 0 0) (fun _ w'' => Delta w w'' 0 0) w' := by
  have spare' : w'.Spare ops 0 := h.spare spare (single_nonneg v)
  refine Prog.wlp_andThen_iff.2 (Prog.wlp_attempt_iff.2 ((wlp_lookparent law spare' newpath nameSize).mono ?_ ?_))
  · intro new w₂ d
    -- both vnodes are given up, whether or not the call is made
    have release {w₃ : World D V F σ} (d' : Delta w₂ w₃ 0 0) :
        Prog.wlp (do vnodeDecref ops new.1; vnodeDecref ops v) (fun _ w'' => Delta w w'' 0 0)
          (fun _ w'' => Delta w w'' 0 0) w₃ := by
      have both : Delta w' w₃ (Pi.single new.1 1) 0 := (d.trans d').congr (add_zero _) (add_zero _)
      refine (wlp_giveBack law spare' both (single_pos _)).andThen (fun _ w₄ d₄ => ?_) (fun _ _ => False.elim)
      have first : Delta w w₄ (Pi.single v 1) 0 := (h.trans d₄).congr (by rw [sub_self, add_zero]) (add_zero _)
      refine (wlp_giveBack law spare first (single_pos v)).mono (fun _ _ d => ?_) (fun _ _ => False.elim)
      exact d.congr (sub_self _) rfl
    have made : Quiet (if ops.fs v = none ∨ ops.fs new.1 = none ∨ ops.fs v ≠ ops.fs new.1 then Prog.fail exdev
        else call new.1 new.2) := by
      split
      next => exact quiet_fail exdev
      next => exact quiet new.1 new.2
    exact made.wlp.always (fun _ _ d' => release d') (fun _ _ d' => release d')
  · intro e w₂ d
    have first : Delta w w₂ (Pi.single v 1) 0 := (h.trans d).congr (add_zero _) (add_zero _)
    refine (wlp_giveBack law spare first (single_pos v)).andThen (fun _ _ d => ?_) (fun _ _ => False.elim)
    exact d.congr (sub_self _) rfl

/-- The rule of `vfs_rename`. -/
lemma wlp_rename [DecidableEq F] (law : ops.Lawful) (spare : w.Spare ops 0) (oldpath newpath : List UInt8) :
    Prog.wlp (vfsRename ops oldpath newpath) (fun _ w' => Delta w w' 0 0) (fun _ w' => Delta w w' 0 0) w := by
  refine (wlp_lookparent law spare oldpath nameSize).andThen (fun old w₁ d => ?_) (fun _ _ => id)
  exact wlp_onBoth law spare newpath (fun _ _ => (law.rename _ _ _ _).vop "rename") d

/-- The rule of `vfs_link`. -/
lemma wlp_link [DecidableEq F] (law : ops.Lawful) (spare : w.Spare ops 0) (oldpath newpath : List UInt8) :
    Prog.wlp (vfsLink ops oldpath newpath) (fun _ w' => Delta w w' 0 0) (fun _ w' => Delta w w' 0 0) w := by
  refine (wlp_lookup law spare oldpath).andThen (fun oldfile w₁ d => ?_) (fun _ _ => id)
  exact wlp_onBoth law spare newpath (fun _ _ => (law.link _ _ _).vop "link") d

/-- The rule of `vfs_readlink`. -/
lemma wlp_readlink (law : ops.Lawful) (spare : w.Spare ops 0) (path : List UInt8) :
    Prog.wlp (vfsReadlink ops path) (fun _ w' => Delta w w' 0 0) (fun _ w' => Delta w w' 0 0) w := by
  refine (wlp_lookup law spare path).andThen (fun vn w₁ d => ?_) (fun _ _ => id)
  exact wlp_quiet_thenDecref law spare d ((law.readlink vn).vop "readlink")

/-- The counts change by what `t_cwd` holds. -/
structure Turn (w w' : World D V F σ) : Prop where
  refcount : w'.refcount = w.refcount + held w'.cwd - held w.cwd
  opencount : w'.opencount = w.opencount

/-- No change is a change of the current directory to itself. -/
lemma Delta.turn (h : Delta w w' 0 0) : Turn w w' := by
  refine ⟨?_, ?_⟩
  · rw [h.refcount, h.cwd, add_zero, add_sub_cancel_right]
  · rw [h.opencount, add_zero]

/-- The old current directory is given up. -/
lemma wlp_releaseOld {dir : Option V} (law : ops.Lawful) (spare : w.Spare ops 0)
    (h : Delta w w' (held dir) 0) :
    Prog.wlp (do Prog.modify fun w => { w with cwd := dir }; releaseOld ops w.cwd : VfsM D V F σ Unit)
      (fun _ w'' => Turn w w'' ∧ w''.cwd = dir) (fun _ _ => False) w' := by
  refine Prog.wlp_andThen_iff.2 (Prog.wlp_modify_iff.2 ?_)
  cases old : w.cwd with
  | none =>
    refine ⟨⟨?_, ?_⟩, rfl⟩
    · change w'.refcount = w.refcount + held dir - held w.cwd
      rw [h.refcount, old]
      exact (sub_zero _).symm
    · change w'.opencount = _
      rw [h.opencount, add_zero]
  | some o =>
    have last : ops.fs o = none → 1 < w'.refcount o := by
      intro device
      have more := spare o device
      have nonneg := held_nonneg dir o
      have one : held (some o) o = 1 := Pi.single_eq_same ..
      rw [old, one, Pi.zero_apply] at more
      rw [h.refcount, Pi.add_apply]
      omega
    have decref := wlp_decref (w := { w' with cwd := dir }) law last
    refine decref.mono (fun _ w'' d => ⟨⟨?_, ?_⟩, d.cwd⟩) (fun _ _ => id)
    · have once : held (some o) = Pi.single o 1 := rfl
      rw [d.refcount, d.cwd, old, once, ← h.refcount]
      exact (sub_eq_add_neg ..).symm
    · have opencount : w''.opencount = w'.opencount := by
        rw [d.opencount, add_zero]
      rw [opencount, h.opencount, add_zero]

/-- The rule of `vfs_setcurdir`. -/
lemma wlp_setcurdir (law : ops.Lawful) (spare : w.Spare ops 0) :
    Prog.wlp (vfsSetcurdir ops v) (fun _ w' => Turn w w' ∧ w'.cwd = some v) (fun _ w' => Delta w w' 0 0) w := by
  refine ((law.gettype v).vop "gettype").wlp.andThen (fun vtype w₁ d => ?_) (fun _ _ => id)
  split
  next => exact d
  next =>
    refine wlp_incref.andThen (fun _ w₂ d' => ?_) (fun _ _ => False.elim)
    refine Prog.wlp_andThen_iff.2 (Prog.wlp_get_iff.2 ?_)
    have taken : Delta w w₂ (held (some v)) 0 := (d.trans d').congr (zero_add _) (add_zero _)
    rw [taken.cwd]
    exact (wlp_releaseOld law spare taken).mono (fun _ _ => id) (fun _ _ => False.elim)

/-- The rule of `vfs_clearcurdir`. -/
lemma wlp_clearcurdir (law : ops.Lawful) (spare : w.Spare ops 0) :
    Prog.wlp (vfsClearcurdir ops) (fun _ w' => Turn w w' ∧ w'.cwd = none) (fun _ _ => False) w :=
  Prog.wlp_andThen_iff.2 (Prog.wlp_get_iff.2 (wlp_releaseOld law spare Delta.refl))

/-- The rule of `vfs_chdir`. -/
lemma wlp_chdir (law : ops.Lawful) (spare : w.Spare ops 0) (path : List UInt8) :
    Prog.wlp (vfsChdir ops path) (fun _ w' => Turn w w') (fun _ w' => Delta w w' 0 0) w := by
  refine (wlp_lookup law spare path).andThen (fun vn w₁ d => ?_) (fun _ _ => id)
  have spare' : w₁.Spare ops 0 := d.spare spare (single_nonneg vn)
  refine (wlp_setcurdir law spare').always (fun _ w₂ turn => ?_) (fun _ w₂ d' => ?_)
  · -- `t_cwd` now holds a reference of its own
    obtain ⟨turn, now⟩ := turn
    have last : ops.fs vn = none → 1 < w₂.refcount vn := by
      intro device
      have more := spare' vn device
      have one : held (some vn) vn = 1 := Pi.single_eq_same ..
      rw [turn.refcount, now, Pi.sub_apply, Pi.add_apply, one]
      rw [Pi.zero_apply] at more
      omega
    refine (wlp_decref law last).mono (fun _ w₃ d₃ => ⟨?_, ?_⟩) (fun _ _ => False.elim)
    · rw [d₃.refcount, d₃.cwd, turn.refcount, d.refcount, d.cwd]
      abel
    · rw [d₃.opencount, turn.opencount, d.opencount, add_zero, add_zero]
  · have same : Delta w w₂ (Pi.single vn 1) 0 := (d.trans d').congr (add_zero _) (add_zero _)
    refine (wlp_giveBack law spare same (single_pos vn)).mono (fun _ _ d => ?_) (fun _ _ => False.elim)
    exact d.congr (sub_self _) rfl

omit [DecidableEq V] in
/-- Two quiet calls in a row are quiet. -/
lemma Quiet.andThen {α β : Type} {m : VfsM D V F σ α} {f : α → VfsM D V F σ β} (hm : Quiet m) (hf : ∀ a, Quiet (f a)) :
    Quiet (m >>= f) := by
  intro w r w'' run
  have both : Prog.wlp (m >>= f) (fun _ w' => Delta w w' 0 0) (fun _ w' => Delta w w' 0 0) w := by
    refine hm.wlp.andThen (fun a w' d => ?_) (fun _ _ => id)
    refine (hf a).wlp.mono (fun _ _ d' => ?_) (fun _ _ d' => ?_)
    · exact (d.trans d').congr (add_zero _) (add_zero _)
    · exact (d.trans d').congr (add_zero _) (add_zero _)
  obtain ⟨ok, err⟩ := Prog.wlp_iff.1 both r w'' run
  cases r with
  | error e => exact err e rfl
  | ok a => exact ok a rfl

omit [DecidableEq V] in
/-- Reading the state is quiet. -/
lemma quiet_get : Quiet (Prog.get : VfsM D V F σ _) := by
  intro w r w' run
  cases run
  exact Delta.refl

omit [DecidableEq V] in
/-- A halt is quiet. -/
lemma quiet_halt {α : Type} (h : Halt) : Quiet (Prog.halt h : VfsM D V F σ α) := nofun

/-- Moving the current directory about in `vfs_getcwd` is quiet. -/
lemma quiet_moveCwd [DecidableEq F] (law : ops.Lawful) : Quiet (moveCwd ops v) := by
  rw [moveCwd]
  split
  next => exact quiet_halt _
  next =>
    refine quiet_get.andThen fun w => ?_
    split
    next => exact quiet_halt _
    next name _ =>
      refine (law.uiomove name).andThen fun _ => (law.uiomove [58]).andThen fun _ => ?_
      exact (law.namefile v).vop "namefile"

/-- The rule of `vfs_getcwd`. -/
lemma wlp_getcwd [DecidableEq F] (law : ops.Lawful) (spare : w.Spare ops 0) :
    Prog.wlp (vfsGetcwd ops) (fun _ w' => Delta w w' 0 0) (fun _ w' => Delta w w' 0 0) w := by
  refine wlp_getcurdir.andThen (fun cwd w₁ d => ?_) (fun _ _ => id)
  exact wlp_quiet_thenDecref law spare d (quiet_moveCwd law)

/-- The reference and the open reference that a call takes over from its caller. -/
def PathCall.consumed : PathCall V → V → ℤ
  | .close vn => Pi.single vn 1
  | _ => 0

/-- The references that the caller gets. -/
def handed (r : Except Nat (Option V)) : V → ℤ :=
  match r with
  | .ok v => held v
  | .error _ => 0

/-- The open references that the caller gets. -/
def PathCall.opened (call : PathCall V) (r : Except Nat (Option V)) : V → ℤ :=
  match call with
  | .open _ _ _ => handed r
  | _ => 0

/-- What a call does to the counts. -/
structure Conserves (call : PathCall V) (r : Except Nat (Option V)) (w w' : World D V F σ) : Prop where
  refcount : w'.refcount = w.refcount + handed r + held w'.cwd - held w.cwd - call.consumed
  opencount : w'.opencount = w.opencount + call.opened r - call.consumed
  error : ∀ e, r = .error e → w'.refcount = w.refcount ∧ w'.opencount = w.opencount

/-- A call that fails. -/
lemma Delta.conserves_error {call : PathCall V} (h : Delta w w' 0 0) (none_ : call.consumed = 0) (e : Nat) :
    Conserves call (.error e) w w' := by
  have refcount : w'.refcount = w.refcount := by rw [h.refcount, add_zero]
  have opencount : w'.opencount = w.opencount := by rw [h.opencount, add_zero]
  refine ⟨?_, ?_, fun _ _ => ⟨refcount, opencount⟩⟩
  · rw [refcount, h.cwd, none_, sub_zero, add_sub_cancel_right]
    exact (add_zero _).symm
  · have none_opened : call.opened (.error e) = 0 := by cases call <;> rfl
    rw [opencount, none_, none_opened, sub_zero, add_zero]

/-- A call that hands out a vnode. -/
lemma Delta.conserves_hand {call : PathCall V} (h : Delta w w' (Pi.single v 1) (call.opened (.ok (some v))))
    (none_ : call.consumed = 0) : Conserves call (.ok (some v)) w w' := by
  refine ⟨?_, ?_, nofun⟩
  · rw [h.refcount, h.cwd, none_, sub_zero, add_sub_cancel_right]
    rfl
  · rw [h.opencount, none_, sub_zero]

/-- A call that hands out nothing. -/
lemma Turn.conserves {call : PathCall V} (h : Turn w w') (opened : call.opened (.ok none) = 0)
    (none_ : call.consumed = 0) : Conserves call (.ok none) w w' := by
  refine ⟨?_, ?_, nofun⟩
  · have nothing : handed (.ok none : Except Nat (Option V)) = 0 := rfl
    rw [h.refcount, none_, sub_zero, nothing, add_zero]
  · rw [h.opencount, opened, none_, sub_zero, add_zero]

/-- A call whose value is not a vnode. -/
lemma wlp_unit {m : VfsM D V F σ Unit} {call : PathCall V} (opened : call.opened (.ok none) = 0)
    (none_ : call.consumed = 0) (h : Prog.wlp m (fun _ w' => Turn w w') (fun _ w' => Delta w w' 0 0) w) :
    Prog.wlp (do m; return none : VfsM D V F σ (Option V)) (fun v w' => Conserves call (.ok v) w w')
      (fun e w' => Conserves call (.error e) w w') w := by
  exact h.andThen (fun _ w' turn => turn.conserves opened none_) (fun e w' d => d.conserves_error none_ e)

/-- A call that returns nothing and is quiet does as its path call says. -/
lemma wlp_unit_quiet {m : VfsM D V F σ Unit} {call : PathCall V} (opened : call.opened (.ok none) = 0)
    (none_ : call.consumed = 0) (h : Prog.wlp m (fun _ w' => Delta w w' 0 0) (fun _ w' => Delta w w' 0 0) w) :
    Prog.wlp (do m; return none : VfsM D V F σ (Option V)) (fun v w' => Conserves call (.ok v) w w')
      (fun e w' => Conserves call (.error e) w w') w :=
  wlp_unit opened none_ (h.mono (fun _ _ => Delta.turn) (fun _ _ => id))

/-- What each call does to the counts. -/
lemma wlp_exec [DecidableEq F] {call : PathCall V} (law : ops.Lawful) (spare : w.Spare ops call.consumed) :
    Prog.wlp (call.exec ops) (fun v w' => Conserves call (.ok v) w w') (fun e w' => Conserves call (.error e) w w') w := by
  have spare₀ (none_ : call.consumed = 0) : w.Spare ops 0 := none_ ▸ spare
  cases call with
  | lookup path =>
    exact (wlp_lookup law (spare₀ rfl) path).andThen (fun _ _ d => d.conserves_hand rfl)
      (fun e _ d => d.conserves_error rfl e)
  | lookparent path buflen =>
    exact (wlp_lookparent law (spare₀ rfl) path buflen).andThen (fun _ _ d => d.conserves_hand rfl)
      (fun e _ d => d.conserves_error rfl e)
  | «open» path openflags mode =>
    exact (wlp_open law (spare₀ rfl) path openflags mode).andThen (fun _ _ d => d.conserves_hand rfl)
      (fun e _ d => d.conserves_error rfl e)
  | close vn =>
    have last : ops.fs vn = none → 1 < w.refcount vn := by
      intro device
      have more := spare vn device
      have nonneg := held_nonneg w.cwd vn
      have one : (PathCall.close vn).consumed vn = 1 := Pi.single_eq_same ..
      omega
    refine (wlp_close law last).andThen (fun _ w' d => ⟨?_, ?_, nofun⟩) (fun _ _ => False.elim)
    · have nothing : handed (.ok none : Except Nat (Option V)) = 0 := rfl
      rw [d.refcount, d.cwd, nothing, add_zero, add_sub_cancel_right]
      exact (sub_eq_add_neg ..).symm
    · have nothing : (PathCall.close vn).opened (.ok none) = 0 := rfl
      rw [d.opencount, nothing, add_zero]
      exact (sub_eq_add_neg ..).symm
  | remove path =>
    exact wlp_unit_quiet rfl rfl (wlp_onParent law (spare₀ rfl) path fun _ _ => (law.remove _ _).vop "remove")
  | rename oldpath newpath => exact wlp_unit_quiet rfl rfl (wlp_rename law (spare₀ rfl) oldpath newpath)
  | link oldpath newpath => exact wlp_unit_quiet rfl rfl (wlp_link law (spare₀ rfl) oldpath newpath)
  | mkdir path mode =>
    exact wlp_unit_quiet rfl rfl (wlp_onParent law (spare₀ rfl) path fun _ _ => (law.mkdir _ _ _).vop "mkdir")
  | rmdir path =>
    exact wlp_unit_quiet rfl rfl (wlp_onParent law (spare₀ rfl) path fun _ _ => (law.rmdir _ _).vop "rmdir")
  | symlink contents path =>
    exact wlp_unit_quiet rfl rfl (wlp_onParent law (spare₀ rfl) path fun _ _ => (law.symlink _ _ _).vop "symlink")
  | readlink path => exact wlp_unit_quiet rfl rfl (wlp_readlink law (spare₀ rfl) path)
  | chdir path => exact wlp_unit rfl rfl (wlp_chdir law (spare₀ rfl) path)
  | setcurdir dir =>
    exact wlp_unit rfl rfl ((wlp_setcurdir law (spare₀ rfl)).mono (fun _ _ turn => turn.1) (fun _ _ => id))
  | clearcurdir =>
    exact wlp_unit rfl rfl ((wlp_clearcurdir law (spare₀ rfl)).mono (fun _ _ turn => turn.1) (fun _ _ => False.elim))
  | getcwd => exact wlp_unit_quiet rfl rfl (wlp_getcwd law (spare₀ rfl))

/-- A call changes the counts of the vnodes by the references that it hands to its caller or stores in `t_cwd`, less those
that it replaces or takes over; a call that returns an error leaves them as they were. -/
theorem vfs_conserves [DecidableEq F] {call : PathCall V} {r : Except Nat (Option V)} (law : ops.Lawful)
    (spare : w.Spare ops call.consumed) (run : call.exec ops w = .ok (r, w')) :
    w'.refcount = w.refcount + handed r + held w'.cwd - held w.cwd - call.consumed ∧
    w'.opencount = w.opencount + call.opened r - call.consumed ∧
    ∀ e, r = .error e → w'.refcount = w.refcount ∧ w'.opencount = w.opencount := by
  obtain ⟨ok, err⟩ := Prog.wlp_iff.1 (wlp_exec law spare) r w' run
  cases r with
  | error e =>
    have conserves := err e rfl
    exact ⟨conserves.refcount, conserves.opencount, conserves.error⟩
  | ok v =>
    have conserves := ok v rfl
    exact ⟨conserves.refcount, conserves.opencount, conserves.error⟩

end

/-- A vnode is handed out. -/
def handOut (v : Nat) : VfsM Unit Nat Unit Unit Nat := do
  vnodeIncref v
  pure v

/-- A file system with a root, vnode 0, and a file, vnode 1; all other vnodes are devices. -/
def smallOps : Vops Unit Nat Unit Unit where
  fs v := if v ≤ 1 then some () else none
  volname _ := some [118]
  getroot _ := handOut 0
  lookup _ _ := handOut 1
  lookparent _ path _ := do return (← handOut 0, path)
  creat _ _ _ _ := handOut 1
  open' _ _ := pure ()
  close _ := pure ()
  reclaim v := Prog.modify fun w => { w with refcount := w.refcount - Pi.single v 1 }
  truncate _ _ := Prog.fail eio
  remove _ _ := pure ()
  rename _ _ _ _ := pure ()
  link _ _ _ := pure ()
  symlink _ _ _ := Prog.fail eunimp
  readlink _ := Prog.fail eunimp
  mkdir _ _ _ := Prog.fail eunimp
  rmdir _ _ := Prog.fail eunimp
  gettype v := pure (if v = 0 then sIfdir else 0)
  namefile _ := pure ()
  uiomove _ := pure ()

omit [DecidableEq V] in
/-- Returning a value is quiet. -/
lemma quiet_pure {α : Type} (a : α) : Quiet (pure a : VfsM D V F σ α) := by
  intro w r w' run
  cases run
  exact Delta.refl

/-- The operations of the small volume keep the contract. -/
lemma smallOps_lawful : smallOps.Lawful where
  getroot _ _ := wlp_takeVnode
  getroot_ok _ _ _ _ := nofun
  lookup _ _ _ := wlp_takeVnode
  lookparent _ _ _ _ := wlp_takeVnode.andThen (fun _ _ => id) (fun _ _ => id)
  creat _ _ _ _ _ := wlp_takeVnode
  open' _ _ := quiet_pure ()
  close _ := quiet_pure ()
  reclaim v _ w r w' _ run := by
    cases run
    exact ⟨sub_eq_add_neg .., (add_zero _).symm, rfl⟩
  truncate _ _ := quiet_fail _
  remove _ _ := quiet_pure ()
  rename _ _ _ _ := quiet_pure ()
  link _ _ _ := quiet_pure ()
  symlink _ _ _ := quiet_fail _
  readlink _ := quiet_fail _
  mkdir _ _ _ := quiet_fail _
  rmdir _ _ := quiet_fail _
  gettype _ := quiet_pure _
  namefile _ := quiet_pure ()
  uiomove _ := quiet_pure ()

/-- The current directory is the root, and each device has the reference of the table. -/
def smallWorld : World Unit Nat Unit Unit where
  refcount v := if v = 1 then 0 else 1
  opencount _ := 0
  cwd := some 0
  bootfs := none
  knowndevs := []
  disk := ()

/-- A file is created and opened, but it cannot be truncated; nothing is left of it. -/
theorem vfs_conserves_small : ∃ w', (PathCall.open [97] 0x15 0).exec smallOps smallWorld = .ok (.error eio, w') ∧
    w'.refcount = smallWorld.refcount ∧ w'.opencount = smallWorld.opencount := by
  obtain ⟨w', run⟩ := Prog.run_of_outcome
    (show Prog.outcome ((PathCall.open [97] 0x15 0).exec smallOps) smallWorld = .ok (.error eio) from rfl)
  have spare : smallWorld.Spare smallOps (PathCall.open [97] 0x15 0).consumed := by
    intro v device
    have two : ¬ v ≤ 1 := by
      intro le
      change (if v ≤ 1 then some () else none) = none at device
      rw [if_pos le] at device
      cases device
    have none_ : held smallWorld.cwd v = 0 := Pi.single_eq_of_ne (by omega) ..
    have one : smallWorld.refcount v = 1 := if_neg (by omega)
    rw [none_, one]
    exact zero_lt_one
  exact ⟨w', run, (vfs_conserves smallOps_lawful spare run).2.2 eio rfl⟩

end PDS.Vfs
