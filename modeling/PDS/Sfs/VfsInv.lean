import PDS.Sfs.Vfs
import PDS.Sfs.Run

/-!
# The VFS layer on a consistent volume

What the calls of the VFS layer do to the references, the open counts and the names of a volume that satisfies the
invariant. A path starts at the root directory, whichever form it has, so `vfs_lookparent` hands out a directory. A
call that takes a reference for its own use drops it again on every way out.
-/

namespace PDS.Sfs
open Kern Word

/-- One more. -/
def incr (R : Nat → Nat) (sv : Nat) : Nat → Nat := Function.update R sv (R sv + 1)

/-- One less. -/
def decr (R : Nat → Nat) (sv : Nat) : Nat → Nat := Function.update R sv (R sv - 1)

/-- Like `Did`, for a call that changes the open counts as well. -/
structure DidOpen (s : SfsFs) (dir : List UInt8 → Option Nat) (refs opens : Nat → Nat) (s' : SfsFs) : Prop where
  inv : Inv s'
  dir : s'.dir = dir
  refs : s'.refs = refs
  opens : s'.opens = opens
  inos : SameInos s s'

/-- The vnode `sv` of the inode `i` has been handed out with a reference, and the map of the directory is `D`. -/
structure Got (s : SfsFs) (D : List UInt8 → Option Nat) (sv i : Nat) (s' : SfsFs) : Prop where
  mem : sv ∈ s'.vnodes
  ino : (s'.vnode sv).ino = i
  did : Did s D (incr s.refs sv) s'

/-- The vnodes to which the VFS layer itself has references. -/
def Vfs.dirs (k : Vfs) : List Nat := k.cwd.toList ++ k.bootfs.toList

/-- They are vnodes of the root directory. -/
def Vfs.AtRoot (k : Vfs) (s : SfsFs) : Prop := ∀ sv ∈ k.dirs, sv ∈ s.vnodes ∧ (s.vnode sv).ino = 1

/-- The start of a path exists. -/
def Vfs.Starts (k : Vfs) (path : CStr) : Prop :=
  match (pathStart path.val).1 with
  | .curdir => k.cwd ≠ none
  | .device name => k.devname = name ∨ k.volname = name
  | .bootfs => k.bootfs ≠ none
  | .curfs => k.cwd ≠ none

/-- A path names a file in the root directory, which need not exist. -/
def Vfs.Parent (k : Vfs) (path : CStr) : Prop :=
  k.Starts path ∧ (subpath path).val ≠ [] ∧ (subpath path).val.length < 256

/-- The root directory has no new name. -/
def NoNewRoot (s : SfsFs) (D : List UInt8 → Option Nat) : Prop := ∀ name, D name = some 1 → s.Named 1

section

variable {k : Vfs} {s s' s'' : SfsFs} {R R' O O' : Nat → Nat} {D D' : List UInt8 → Option Nat} {v sv sw i : Nat}
  {path name : CStr}

/-- One vnode counts one more. -/
@[simp] lemma incr_apply : incr R sv sw = R sw + if sw = sv then 1 else 0 := by
  rw [incr, Function.update_apply]
  split_ifs with e
  · rw [e]
  · rfl

/-- One vnode counts one less. -/
@[simp] lemma decr_apply : decr R sv sw = R sw - if sw = sv then 1 else 0 := by
  rw [decr, Function.update_apply]
  split_ifs with e
  · rw [e]
  · rfl

/-- One more and one less. -/
lemma decr_incr : decr (incr R sv) sv = R := by
  funext sw
  simp

/-- The order does not matter. -/
lemma incr_comm : incr (incr R sv) sw = incr (incr R sw) sv := by
  funext x
  simp only [incr_apply]
  omega

/-- A step that opens nothing. -/
lemma Did.open (did : Did s D R s') : DidOpen s D R s.opens s' := ⟨did.inv, did.dir, did.refs, did.opens, did.inos⟩

/-- The same, the other way. -/
lemma DidOpen.closed (did : DidOpen s D R s.opens s') : Did s D R s' :=
  ⟨did.inv, did.dir, did.refs, did.opens, did.inos⟩

/-- Steps compose. -/
lemma DidOpen.trans (h : DidOpen s D R O s') (h' : DidOpen s' D' R' O' s'') : DidOpen s D' R' O' s'' :=
  ⟨h'.inv, h'.dir, h'.refs, h'.opens, h.inos.trans h'.inos⟩

/-- A vnode stays in the table as long as there are references to it. -/
lemma Did.stays (h : Inv s) (did : Did s D R s') (mem : sv ∈ s.vnodes) (pos : 0 < R sv) :
    sv ∈ s'.vnodes ∧ (s'.vnode sv).ino = (s.vnode sv).ino := by
  refine ⟨?_, did.inos.ino sv (h.core.table.below mem)⟩
  rw [did.inv.core.table.mem_iff, did.refs]
  exact pos

/-- The vfs level still starts at the root. -/
lemma Vfs.AtRoot.did (dirs : k.AtRoot s) (h : Inv s) (got : Got s D v i s') : k.AtRoot s' := by
  intro sv mem
  obtain ⟨mem, ino⟩ := dirs sv mem
  obtain ⟨mem', ino'⟩ := got.did.keeps h mem
  exact ⟨mem', ino'.trans ino⟩

/-- A reference is dropped that no one who has opened the vnode holds. -/
lemma Did.drop_step (did : Did s D (incr R sv) s') (held : s.opens sv ≤ R sv) {E : Nat → SfsFs → Prop} :
    Prog.wp (vopDecref sv) (fun _ => Did s' D R) E s' := by
  have more : s'.opens sv < s'.refs sv := by
    rw [did.opens, did.refs, incr_apply, if_pos rfl]
    exact Nat.lt_succ_of_le held
  refine (did.inv.wp_vopDecref more).mono ?_ (fun _ _ e => e)
  intro _ s₁ did'
  have back : Function.update s'.refs sv (s'.refs sv - 1) = R := by
    rw [did.refs]
    exact decr_incr
  rw [did.dir, back] at did'
  exact did'

/-- A reference given up at the end. -/
lemma Did.drop (did : Did s D (incr R sv) s') (held : s.opens sv ≤ R sv) {E : Nat → SfsFs → Prop} :
    Prog.wp (vopDecref sv) (fun _ => Did s D R) E s' :=
  (did.drop_step held).mono (fun _ _ did' => did.trans did') (fun _ _ e => e)

/-- One reference more covers the opens. -/
lemma Inv.le_incr (h : Inv s) : s.opens sw ≤ incr s.refs sv sw := by
  rw [incr_apply]
  exact (h.held sw).trans (Nat.le_add_right _ _)

/-- A vnode is handed out, and the reference to the vnode `v` of its directory is dropped. -/
lemma Inv.wp_got_drop (h : Inv s) (mem : sv ∈ s'.vnodes) (ino : (s'.vnode sv).ino = i)
    (did : Did s D (incr (incr s.refs v) sv) s') {E : Nat → SfsFs → Prop} :
    Prog.wp (vopDecref v) (fun _ => Got s D sv i) E s' := by
  rw [incr_comm] at did
  refine (did.drop_step h.le_incr).mono ?_ (fun _ _ e => e)
  intro _ s₁ did₁
  have pos : 0 < incr s.refs sv sv := by
    rw [incr_apply, if_pos rfl]
    exact Nat.succ_pos _
  obtain ⟨mem₁, ino₁⟩ := did₁.stays did.inv mem pos
  exact ⟨mem₁, ino₁.trans ino, did.trans did₁⟩

/-- A vnode handed out with a reference. -/
lemma Inv.got_incref (h : Inv s) (mem : v ∈ s.vnodes) (ino : (s.vnode v).ino = i) :
    Got s s.dir v i (s.mapVnode v fun v => { v with refcount := v.refcount + 1 }) := by
  have did := h.did_incref mem
  obtain ⟨mem', ino'⟩ := did.keeps h mem
  exact ⟨mem', ino'.trans ino, did⟩

/-- The rule of `sfs_getroot`. -/
lemma Inv.wp_got_getroot (h : Inv s) {E : Nat → SfsFs → Prop} :
    Prog.wp sfsGetroot (fun sv s' => Got s s.dir sv 1 s') E s :=
  h.wp_sfsGetroot.mono (fun _ _ ⟨mem, ino, did⟩ => ⟨mem, ino, did⟩) (fun _ _ e => e)

/-- The current directory is one of the directories. -/
lemma Vfs.mem_cwd (cwd : k.cwd = some v) : v ∈ k.dirs := by
  simp [Vfs.dirs, cwd]

/-- So is that of the boot file system. -/
lemma Vfs.mem_bootfs (bootfs : k.bootfs = some v) : v ∈ k.dirs := by
  simp [Vfs.dirs, bootfs]

/-- The rule of `vfs_getcurdir`. -/
lemma Inv.wp_vfsGetcurdir (h : Inv s) (dirs : k.AtRoot s) :
    Prog.wp (vfsGetcurdir k) (fun sv s' => k.cwd ≠ none ∧ Got s s.dir sv 1 s') (fun _ s' => k.cwd = none ∧ s' = s) s := by
  rw [vfsGetcurdir]
  cases cwd : k.cwd with
  | none => exact ⟨rfl, rfl⟩
  | some v =>
    obtain ⟨mem, ino⟩ := dirs v (Vfs.mem_cwd cwd)
    rw [Prog.wp_andThen_iff]
    exact Prog.wp_of_run rfl ⟨nofun, h.got_incref mem ino⟩

/-- A path of any form starts at the root directory. -/
lemma Inv.wp_getdevice (h : Inv s) (dirs : k.AtRoot s) (path : CStr) :
    Prog.wp (getdevice k path) (fun sv s' => k.Starts path ∧ Got s s.dir sv 1 s')
      (fun _ s' => ¬ k.Starts path ∧ s' = s) s := by
  rw [getdevice, Vfs.Starts]
  cases (pathStart path.val).1 with
  | curdir =>
    dsimp only
    exact (h.wp_vfsGetcurdir dirs).mono (fun _ _ post => post) (fun _ _ none => ⟨not_not.2 none.1, none.2⟩)
  | device name =>
    dsimp only
    rw [vfsGetroot]
    split_ifs with known
    · exact h.wp_got_getroot.mono (fun _ _ got => ⟨known, got⟩) (fun _ _ e => e)
    · exact ⟨known, rfl⟩
  | bootfs =>
    dsimp only
    cases bootfs : k.bootfs with
    | none => exact ⟨not_not.2 rfl, rfl⟩
    | some v =>
      obtain ⟨mem, ino⟩ := dirs v (Vfs.mem_bootfs bootfs)
      dsimp only
      rw [Prog.wp_andThen_iff]
      exact Prog.wp_of_run rfl ⟨nofun, h.got_incref mem ino⟩
  | curfs =>
    dsimp only
    rw [Prog.wp_andThen_iff]
    refine (h.wp_vfsGetcurdir dirs).mono ?_ (fun _ _ none => ⟨not_not.2 none.1, none.2⟩)
    rintro vn s₁ ⟨known, got⟩
    rw [Prog.wp_andThen_iff]
    refine got.did.inv.wp_got_getroot.mono ?_ (fun _ _ e => e)
    intro startvn s₂ root
    have did := root.did
    rw [got.did.dir, got.did.refs] at did
    rw [Prog.wp_andThen_iff]
    exact (h.wp_got_drop root.mem root.ino (got.did.trans did)).mono (fun _ _ got₃ => ⟨known, got₃⟩) (fun _ _ e => e)

/-- The rule for a call in the root directory. -/
lemma Inv.wp_onDir_root (h : Inv s) (mem : v ∈ s.vnodes) (ino : (s.vnode v).ino = 1) {α : Type} {m : SfsM α}
    {Q : α → SfsFs → Prop} {E : Nat → SfsFs → Prop} (dir : Prog.wp m Q E s) : Prog.wp (onDir v m) Q E s :=
  h.wp_onDir mem (fun _ => dir) (fun no => absurd ino no)

/-- `vfs_lookparent` hands out the root directory, and the name as it stands in the path. -/
lemma Inv.wp_vfsLookparent (h : Inv s) (dirs : k.AtRoot s) (path : CStr) :
    Prog.wp (vfsLookparent k path 256)
      (fun p s' => k.Parent path ∧ p.2 = subpath path ∧ Got s s.dir p.1 1 s')
      (fun _ s' => ¬ k.Parent path ∧ Did s s.dir s.refs s') s := by
  rw [vfsLookparent, Prog.wp_andThen_iff]
  refine (h.wp_getdevice dirs path).mono ?_ ?_
  · rintro startvn s₁ ⟨starts, got⟩
    have inv := got.did.inv
    have refuse (no : ¬ k.Parent path) : Prog.wp (vopDecref startvn)
        (fun _ s' => ¬ k.Parent path ∧ Did s s.dir s.refs s') (fun _ s' => ¬ k.Parent path ∧ Did s s.dir s.refs s') s₁ :=
      (got.did.drop (h.held startvn)).mono (fun _ _ did => ⟨no, did⟩) (fun _ _ no => no)
    refine wp_andAlways ?_
    split_ifs with empty
    · exact refuse fun parent => parent.2.1 (List.eq_nil_of_length_eq_zero empty)
    · refine inv.wp_onDir_root got.mem got.ino ?_
      have type : (s₁.vnode startvn).i.type = typeDir := (inv.dir_type got.mem).2 got.ino
      rw [sfsLookparent, Prog.wp_andThen_iff]
      refine Prog.wp_of_run rfl ?_
      rw [if_neg (not_not.2 type)]
      split_ifs with long
      · exact refuse fun parent => absurd parent.2.2 (by omega)
      · have got₂ := inv.got_incref got.mem got.ino
        rw [Prog.wp_andThen_iff]
        refine Prog.wp_of_run rfl ?_
        have did := got₂.did
        rw [got.did.dir, got.did.refs] at did
        refine (h.wp_got_drop got₂.mem got₂.ino (got.did.trans did)).mono ?_ (fun _ _ no => no)
        intro _ s₃ got₃
        refine ⟨⟨starts, ?_, by omega⟩, rfl, got₃⟩
        exact fun none => empty (by rw [none]; rfl)
  · rintro e s₁ ⟨no, rfl⟩
    exact ⟨fun parent => no parent.1, .refl h⟩

/-- `vfs_lookup` hands out the root directory only for a path that ends where it starts, or for a name of the root
directory. -/
lemma Inv.wp_vfsLookup (h : Inv s) (dirs : k.AtRoot s) (path : CStr) :
    Prog.wp (vfsLookup k path)
      (fun sv s' => ∃ i, Got s s.dir sv i s' ∧
        (i = 1 → k.Starts path ∧ (subpath path).val = [] ∨ s.dir (subpath path).val = some 1))
      (fun _ s' => Did s s.dir s.refs s') s := by
  rw [vfsLookup, Prog.wp_andThen_iff]
  refine (h.wp_getdevice dirs path).mono ?_ ?_
  · rintro startvn s₁ ⟨starts, got⟩
    have inv := got.did.inv
    split_ifs with empty
    · exact ⟨1, got, fun _ => .inl ⟨starts, List.eq_nil_of_length_eq_zero empty⟩⟩
    · refine wp_andAlways (inv.wp_onDir_root got.mem got.ino ((inv.wp_sfsLookup got.mem got.ino).mono ?_ ?_))
      · intro sv s₂ found
        have did := found.did
        rw [got.did.refs, got.did.dir] at did
        refine (h.wp_got_drop found.mem rfl (got.did.trans did)).mono ?_ (fun _ _ e => e)
        intro _ s₃ got₃
        refine ⟨_, got₃, fun one => .inr ?_⟩
        rw [← one, ← found.dir, got.did.dir]
      · rintro e s₂ ⟨rfl, -⟩
        exact (got.did.drop (h.held startvn)).mono (fun _ _ did => did) (fun _ _ e => e)
  · rintro e s₁ ⟨-, rfl⟩
    exact .refl h

/-- The old names. -/
lemma NoNewRoot.same : NoNewRoot s s.dir := fun name named => ⟨name, named⟩

/-- A new name for an old file. -/
lemma NoNewRoot.insert (h : NoNewRoot s D) {name : List UInt8} (old : i = 1 → s.Named 1) :
    NoNewRoot s (Function.update D name (some i)) := by
  intro name' named
  by_cases same : name' = name
  · rw [same, Function.update_self] at named
    exact old (Option.some.inj named)
  · rw [Function.update_of_ne same] at named
    exact h name' named

/-- One name less. -/
lemma NoNewRoot.erase (h : NoNewRoot s D) {name : List UInt8} : NoNewRoot s (Function.update D name none) := by
  intro name' named
  by_cases same : name' = name
  · rw [same, Function.update_self] at named
    cases named
  · rw [Function.update_of_ne same] at named
    exact h name' named

/-- The open count of a vnode is set, to no more than its references. -/
lemma Inv.didOpen (h : Inv s) (mem : sv ∈ s.vnodes) {n : Nat} (le : n ≤ s.refs sv) :
    DidOpen s s.dir s.refs (Function.update s.opens sv n) (s.mapVnode sv fun v => { v with opencount := n }) := by
  have inode : (s.mapVnode sv fun v => { v with opencount := n }).inode = s.inode := h.core.table.inode_keep mem rfl rfl
  have file : (s.mapVnode sv fun v => { v with opencount := n }).file = s.file := SfsFs.file_of_inode inode rfl
  have ptr : (s.mapVnode sv fun v => { v with opencount := n }).ptr = s.ptr := SfsFs.ptr_of_inode inode rfl
  have own : (s.mapVnode sv fun v => { v with opencount := n }).vnode sv = { s.vnode sv with opencount := n } :=
    Function.update_self ..
  have other (sw : Nat) (ne : sw ≠ sv) : (s.mapVnode sv fun v => { v with opencount := n }).vnode sw = s.vnode sw :=
    Function.update_of_ne ne ..
  have refs : (s.mapVnode sv fun v => { v with opencount := n }).refs = s.refs := by
    funext sw
    by_cases e : sw = sv
    · rw [e, SfsFs.refs_of_mem mem, SfsFs.refs_of_mem (s := s.mapVnode ..) mem, own]
    · rw [SfsFs.refs, SfsFs.refs, other sw e]
      rfl
  have opens : (s.mapVnode sv fun v => { v with opencount := n }).opens = Function.update s.opens sv n := by
    funext sw
    by_cases e : sw = sv
    · rw [e, Function.update_self, SfsFs.opens_of_mem (s := s.mapVnode ..) mem, own]
    · rw [Function.update_of_ne e, SfsFs.opens, SfsFs.opens, other sw e]
      rfl
  have core := h.core.mapVnode mem (f := fun v => { v with opencount := n }) rfl rfl id rfl rfl rfl (h.core.disk.inode mem)
  obtain ⟨inv, dir⟩ := h.of_core core (by rw [file]) (by rw [ptr]; exact fun _ used => used) (by
    intro j hj
    rw [file]
    exact h.links j ((SfsFs.live_mapVnode rfl).1 hj)) (by
    intro sw
    rw [refs, opens, Function.update_apply]
    split_ifs with e
    · rw [e]
      exact le
    · exact h.held sw)
  refine ⟨inv, dir, refs, opens, Nat.le_refl _, ?_⟩
  intro sw _
  exact SfsFs.ino_mapVnode (f := fun v => { v with opencount := n }) rfl sw

/-- The rule of `VOP_INCOPEN`. -/
lemma Inv.wp_vopIncopen (h : Inv s) (held : s.opens sv < s.refs sv) {E : Nat → SfsFs → Prop} :
    Prog.wp (vopIncopen sv) (fun _ => DidOpen s s.dir s.refs (incr s.opens sv)) E s := by
  have mem : sv ∈ s.vnodes := h.core.table.mem_iff.2 (by omega)
  have did := h.didOpen mem (n := s.opens sv + 1) held
  rw [SfsFs.opens_of_mem mem] at did
  refine Prog.wp_of_run rfl ?_
  rw [incr, SfsFs.opens_of_mem mem]
  exact did

/-- The rule of `VOP_DECOPEN`. -/
lemma Inv.wp_vopDecopen (h : Inv s) (pos : 0 < s.opens sv) {E : Nat → SfsFs → Prop} :
    Prog.wp (vopDecopen sv) (fun _ => DidOpen s s.dir s.refs (decr s.opens sv)) E s := by
  have held := h.held sv
  have mem : sv ∈ s.vnodes := h.core.table.mem_iff.2 (by omega)
  have did := h.didOpen mem (n := s.opens sv - 1) (by omega)
  rw [SfsFs.opens_of_mem mem] at did pos
  rw [decr, SfsFs.opens_of_mem mem, vopDecopen, Prog.wp_andThen_iff]
  refine Prog.wp_of_run rfl ?_
  rw [Prog.wp_andThen_iff]
  refine Prog.wp.require pos ?_
  rw [Prog.wp_andThen_iff]
  refine Prog.wp_of_run (t := s.mapVnode sv fun v => { v with opencount := (s.vnode sv).opencount - 1 }) rfl ?_
  split_ifs with more
  · exact did
  · rw [Prog.wp_andThen_iff, Prog.wp_attempt_iff]
    refine (did.inv.wp_sfsFsync (E := fun _ _ => False) mem).mono ?_ (fun _ _ no => no.elim)
    intro _ s₁ synced
    have last := did.trans synced.open
    rw [did.dir, did.refs, did.opens] at last
    exact last

/-- `vfs_close` gives back the reference that `vfs_open` has taken. -/
lemma Inv.wp_vfsClose (h : Inv s) (pos : 0 < s.opens sv) {E : Nat → SfsFs → Prop} :
    Prog.wp (vfsClose sv) (fun _ => DidOpen s s.dir (decr s.refs sv) (decr s.opens sv)) E s := by
  rw [vfsClose, Prog.wp_andThen_iff]
  refine (h.wp_vopDecopen pos).mono ?_ (fun _ _ e => e)
  intro _ s₁ did
  have held : s₁.opens sv < s₁.refs sv := by
    have := h.held sv
    rw [did.opens, did.refs, decr_apply, if_pos rfl]
    omega
  refine (did.inv.wp_vopDecref held).mono ?_ (fun _ _ e => e)
  intro _ s₂ did₂
  have all := did.trans did₂.open
  rw [did.dir, did.refs, did.opens] at all
  exact all

/-- The rule of `VOP_OPEN`. -/
lemma wp_vopOpen {openflags : BitVec 32} :
    Prog.wp (vopOpen sv openflags) (fun _ s' => s' = s) (fun _ s' => s' = s) s := by
  rw [vopOpen, Prog.wp_andThen_iff]
  refine Prog.wp_of_run rfl ?_
  cases (s.vnode sv).ops with
  | file =>
    dsimp only
    rw [sfsOpen]
    split_ifs
    · rfl
    · rfl
  | dir =>
    dsimp only
    rw [sfsOpendir]
    split_ifs
    · rfl
    · rfl
    · rfl

/-- An open vnode is truncated, or closed again. -/
lemma Inv.wp_openTrunc (h : Inv s) (pos : 0 < s.opens sv) {canwrite : Bool} :
    Prog.wp (openTrunc sv canwrite) (fun _ => Did s s.dir s.refs)
      (fun _ => DidOpen s s.dir (decr s.refs sv) (decr s.opens sv)) s := by
  have held := h.held sv
  have mem : sv ∈ s.vnodes := h.core.table.mem_iff.2 (by omega)
  have spec : Prog.wp (if canwrite then vopTruncate sv 0 else Prog.fail einval) (fun _ => Did s s.dir s.refs)
      (fun _ s' => s' = s) s := by
    split_ifs
    · exact h.wp_vopTruncate mem 0
    · rfl
  rw [openTrunc, Prog.wp_andThen_iff, Prog.wp_attempt_iff]
  refine spec.mono (fun _ _ did => did) ?_
  rintro e s' rfl
  have closed := h.wp_vfsClose pos (E := fun _ => DidOpen s' s'.dir (decr s'.refs sv) (decr s'.opens sv))
  rw [vfsClose, Prog.wp_andThen_iff] at closed
  dsimp only
  rw [Prog.wp_andThen_iff]
  refine closed.mono ?_ (fun _ _ e => e)
  intro _ s₁ last
  rw [Prog.wp_andThen_iff]
  exact last

/-- A vnode is opened, or the reference to it is dropped. -/
lemma Inv.wp_openAt (h : Inv s) (held : s.opens sv < s.refs sv) {openflags : BitVec 32} {canwrite : Bool} :
    Prog.wp (openAt sv openflags canwrite)
      (fun sw s' => sw = sv ∧ DidOpen s s.dir s.refs (incr s.opens sv) s')
      (fun _ => Did s s.dir (decr s.refs sv)) s := by
  rw [openAt, Prog.wp_andThen_iff, Prog.wp_attempt_iff]
  refine wp_vopOpen.mono ?_ ?_
  · rintro _ s' rfl
    dsimp only
    rw [Prog.wp_andThen_iff]
    refine (h.wp_vopIncopen held).mono ?_ (fun _ _ e => e)
    intro _ s₁ opened
    rw [Prog.wp_andThen_iff]
    split_ifs
    · have pos : 0 < s₁.opens sv := by
        rw [opened.opens, incr_apply, if_pos rfl]
        exact Nat.succ_pos _
      refine (opened.inv.wp_openTrunc pos).mono ?_ ?_
      · intro _ s₂ did
        have all := opened.trans did.open
        rw [opened.dir, opened.refs, opened.opens] at all
        exact ⟨rfl, all⟩
      · intro _ s₂ did
        have all := opened.trans did
        rw [opened.dir, opened.refs, opened.opens, decr_incr] at all
        exact all.closed
    · exact ⟨rfl, opened⟩
  · rintro e s' rfl
    dsimp only
    rw [Prog.wp_andThen_iff]
    exact (h.wp_vopDecref held).mono (fun _ _ did => did) (fun _ _ e => e)

/-- The vnode that `vfs_open` opens: an old file, or a new one. -/
lemma Inv.wp_openVnode (h : Inv s) (dirs : k.AtRoot s) (path : CStr) (openflags : BitVec 32) :
    Prog.wp (openVnode k path openflags) (fun sv s' => ∃ D i, NoNewRoot s D ∧ Got s D sv i s')
      (fun _ => Did s s.dir s.refs) s := by
  rw [openVnode]
  split_ifs with creat
  · rw [Prog.wp_andThen_iff]
    refine (h.wp_vfsLookparent dirs path).mono ?_ (fun _ _ no => no.2)
    rintro p s₁ ⟨-, -, got⟩
    have inv := got.did.inv
    refine wp_andAlways (inv.wp_onDir_root got.mem got.ino ((inv.wp_sfsCreat got.mem got.ino _).mono ?_ ?_))
    · intro sv s₂ post
      have drop {D : List UInt8 → Option Nat} (names : NoNewRoot s D) (mem : sv ∈ s₂.vnodes)
          (did : Did s₁ D (incr s₁.refs sv) s₂) :
          Prog.wp (vopDecref p.1) (fun _ s' => ∃ D i, NoNewRoot s D ∧ Got s D sv i s') (fun _ => Did s s.dir s.refs) s₂ := by
        rw [got.did.refs] at did
        refine (h.wp_got_drop mem rfl (got.did.trans did)).mono ?_ (fun _ _ e => e)
        intro _ s₃ got₃
        exact ⟨D, _, names, got₃⟩
      obtain ⟨-, found⟩ | created := post
      · refine drop ?_ found.mem found.did
        rw [got.did.dir]
        exact .same
      · refine drop ?_ created.mem created.did
        rw [got.did.dir]
        exact .insert .same fun one => absurd (one ▸ SfsFs.live_root) created.new
    · rintro e s₂ ⟨did, -⟩
      rw [got.did.dir, got.did.refs] at did
      exact ((got.did.trans did).drop (h.held p.1)).mono (fun _ _ did => did) (fun _ _ e => e)
  · refine (h.wp_vfsLookup dirs path).mono ?_ (fun _ _ did => did)
    rintro sv s' ⟨i, got, -⟩
    exact ⟨s.dir, i, .same, got⟩

/-- `vfs_open` counts one more reference and one more open of the vnode it hands out. -/
lemma Inv.wp_vfsOpen (h : Inv s) (dirs : k.AtRoot s) (path : CStr) (openflags : BitVec 32) :
    Prog.wp (vfsOpen k path openflags)
      (fun sv s' => ∃ D, NoNewRoot s D ∧ DidOpen s D (incr s.refs sv) (incr s.opens sv) s')
      (fun _ s' => ∃ D, NoNewRoot s D ∧ Did s D s.refs s') s := by
  rw [vfsOpen]
  cases openMode openflags with
  | none => exact ⟨s.dir, .same, .refl h⟩
  | some canwrite =>
    dsimp only
    rw [Prog.wp_andThen_iff]
    refine (h.wp_openVnode dirs path openflags).mono ?_ (fun _ _ did => ⟨s.dir, .same, did⟩)
    rintro sv s₁ ⟨D, i, names, got⟩
    have held : s₁.opens sv < s₁.refs sv := by
      rw [got.did.opens, got.did.refs, incr_apply, if_pos rfl]
      exact Nat.lt_succ_of_le (h.held sv)
    refine (got.did.inv.wp_openAt held).mono ?_ ?_
    · rintro _ s₂ ⟨rfl, did⟩
      rw [got.did.dir, got.did.refs, got.did.opens] at did
      exact ⟨D, names, got.did.open.trans did⟩
    · intro e s₂ did
      rw [got.did.dir, got.did.refs, decr_incr] at did
      exact ⟨D, names, got.did.trans did⟩

/-- The rule of `vfs_remove`. -/
lemma Inv.wp_vfsRemove (h : Inv s) (dirs : k.AtRoot s) (path : CStr) :
    Prog.wp (vfsRemove k path) (fun _ s' => ∃ D, NoNewRoot s D ∧ Did s D s.refs s') (fun _ => Did s s.dir s.refs) s := by
  rw [vfsRemove, Prog.wp_andThen_iff]
  refine (h.wp_vfsLookparent dirs path).mono ?_ (fun _ _ no => no.2)
  rintro p s₁ ⟨-, -, got⟩
  have inv := got.did.inv
  refine wp_andAlways (inv.wp_onDir_root got.mem got.ino ((inv.wp_sfsRemove got.mem got.ino).mono ?_ ?_))
  · rintro _ s₂ ⟨-, did⟩
    rw [got.did.dir, got.did.refs] at did
    refine ((got.did.trans did).drop (h.held p.1)).mono ?_ (fun _ _ e => e)
    intro _ s₃ did₃
    exact ⟨_, NoNewRoot.same.erase, did₃⟩
  · rintro e s₂ ⟨rfl, -⟩
    exact (got.did.drop (h.held p.1)).mono (fun _ _ did => did) (fun _ _ e => e)

/-- The references to two vnodes are dropped. -/
lemma Did.wp_drop_two (h : Inv s) (did : Did s D (incr (incr s.refs sv) sw) s') {E : Nat → SfsFs → Prop} :
    Prog.wp (do vopDecref sw; vopDecref sv) (fun _ => Did s D s.refs) E s' := by
  rw [Prog.wp_andThen_iff]
  refine (did.drop h.le_incr).mono ?_ (fun _ _ e => e)
  intro _ s₁ did₁
  exact did₁.drop (h.held sv)

/-- `vfs_link` gives the root directory a name only if the old path resolves to it. -/
lemma Inv.wp_vfsLink (h : Inv s) (dirs : k.AtRoot s) (oldpath newpath : CStr) :
    Prog.wp (vfsLink k oldpath newpath)
      (fun _ s' => ∃ D, (NoNewRoot s D ∨ k.Starts oldpath ∧ (subpath oldpath).val = []) ∧ Did s D s.refs s')
      (fun _ => Did s s.dir s.refs) s := by
  rw [vfsLink, Prog.wp_andThen_iff]
  refine (h.wp_vfsLookup dirs oldpath).mono ?_ (fun _ _ did => did)
  rintro oldfile s₁ ⟨i, got, root⟩
  have inv := got.did.inv
  rw [Prog.wp_andThen_iff, Prog.wp_attempt_iff]
  refine (inv.wp_vfsLookparent (dirs.did h got) newpath).mono ?_ ?_
  · rintro new s₂ ⟨-, -, got₂⟩
    obtain ⟨mem, ino⟩ := got₂.did.keeps inv got.mem
    have inv₂ := got₂.did.inv
    have did₂ := got₂.did
    rw [got.did.dir, got.did.refs] at did₂
    refine wp_andAlways (inv₂.wp_onDir_root got₂.mem got₂.ino ((inv₂.wp_sfsLink got₂.mem got₂.ino mem).mono ?_ ?_))
    · rintro _ s₃ ⟨-, did⟩
      rw [did₂.dir, did₂.refs] at did
      refine (Did.wp_drop_two h ((got.did.trans did₂).trans did)).mono ?_ (fun _ _ e => e)
      intro _ s₄ did₄
      refine ⟨_, ?_, did₄⟩
      by_cases one : i = 1
      · obtain whole | named := root one
        · exact .inr whole
        · exact .inl (.insert .same fun _ => ⟨_, named⟩)
      · exact .inl (.insert .same fun e => absurd (got.ino ▸ ino ▸ e) one)
    · rintro e s₃ ⟨did, -⟩
      rw [did₂.dir, did₂.refs] at did
      exact Did.wp_drop_two h ((got.did.trans did₂).trans did)
  · rintro e s₂ ⟨-, did⟩
    rw [got.did.dir, got.did.refs] at did
    dsimp only
    rw [Prog.wp_andThen_iff]
    exact ((got.did.trans did).drop (h.held oldfile)).mono (fun _ _ did => did) (fun _ _ e => e)

/-- `vfs_rename` returns unless the old name is a name of the root directory. -/
lemma Inv.wp_vfsRename (h : Inv s) (dirs : k.AtRoot s) (oldpath newpath : CStr)
    (file : k.Parent oldpath → k.Parent newpath → s.dir (subpath oldpath).val ≠ some 1) :
    Prog.wp (vfsRename k oldpath newpath) (fun _ s' => ∃ D, NoNewRoot s D ∧ Did s D s.refs s')
      (fun _ => Did s s.dir s.refs) s := by
  rw [vfsRename, Prog.wp_andThen_iff]
  refine (h.wp_vfsLookparent dirs oldpath).mono ?_ (fun _ _ no => no.2)
  rintro ⟨d1, n1⟩ s₁ ⟨parent, rfl, got⟩
  have inv := got.did.inv
  rw [Prog.wp_andThen_iff, Prog.wp_attempt_iff]
  refine (inv.wp_vfsLookparent (dirs.did h got) newpath).mono ?_ ?_
  · rintro ⟨d2, n2⟩ s₂ ⟨parent₂, rfl, got₂⟩
    obtain ⟨mem, ino⟩ := got₂.did.keeps inv got.mem
    have inv₂ := got₂.did.inv
    have did₂ := got₂.did
    have one := ino.trans got.ino
    obtain rfl := inv₂.core.table.inj mem got₂.mem (one.trans got₂.ino.symm)
    rw [got.did.dir, got.did.refs] at did₂
    have notRoot : s₂.dir (subpath oldpath).val ≠ some 1 := by
      rw [did₂.dir]
      exact file parent parent₂
    refine wp_andAlways (inv₂.wp_onDir_root mem one ((inv₂.wp_sfsRename mem one notRoot).mono ?_ ?_))
    · rintro _ s₃ ⟨i, named, -, did⟩
      rw [did₂.dir, did₂.refs] at did
      rw [did₂.dir] at named
      refine (Did.wp_drop_two h ((got.did.trans did₂).trans did)).mono ?_ (fun _ _ e => e)
      intro _ s₄ did₄
      exact ⟨_, (NoNewRoot.same.insert fun e => ⟨_, e ▸ named⟩).erase, did₄⟩
    · rintro e s₃ ⟨did, -⟩
      rw [did₂.dir, did₂.refs] at did
      exact Did.wp_drop_two h ((got.did.trans did₂).trans did)
  · rintro e s₂ ⟨-, did⟩
    rw [got.did.dir, got.did.refs] at did
    dsimp only
    rw [Prog.wp_andThen_iff]
    exact ((got.did.trans did).drop (h.held d1)).mono (fun _ _ did => did) (fun _ _ e => e)

/-- The directory of a path is found. -/
lemma Inv.vfsLookparent_run (h : Inv s) (dirs : k.AtRoot s) (parent : k.Parent path) :
    ∃ d s', vfsLookparent k path 256 s = .ok (.ok (d, subpath path), s') ∧ Got s s.dir d 1 s' := by
  obtain ⟨r, s', run, ok, err⟩ := Prog.wp_iff.1 (h.wp_vfsLookparent dirs path)
  cases r with
  | error e => exact absurd parent (err e rfl).1
  | ok p =>
    obtain ⟨d, name⟩ := p
    obtain ⟨-, rfl, got⟩ := ok _ rfl
    exact ⟨d, s', run, got⟩

/-- Renaming a name of the root directory stops the machine. -/
lemma Inv.vfsRename_root (h : Inv s) (dirs : k.AtRoot s) {oldpath newpath : CStr} (parent : k.Parent oldpath)
    (parent₂ : k.Parent newpath) (root : s.dir (subpath oldpath).val = some 1) :
    vfsRename k oldpath newpath s = .error (.kassert "g1->sv_i.sfi_type == SFS_TYPE_FILE") := by
  obtain ⟨d, s₁, run, got⟩ := h.vfsLookparent_run dirs parent
  obtain ⟨d2, s₂, run₂, got₂⟩ := got.did.inv.vfsLookparent_run (dirs.did h got) parent₂
  have inv₂ := got₂.did.inv
  obtain ⟨mem, ino⟩ := got₂.did.keeps got.did.inv got.mem
  have one := ino.trans got.ino
  obtain rfl := inv₂.core.table.inj mem got₂.mem (one.trans got₂.ino.symm)
  have root₂ : s₂.dir (subpath oldpath).val = some 1 := by
    rw [got₂.did.dir, got.did.dir]
    exact root
  have ops : (s₂.vnode d).ops = .dir := by rw [inv₂.core.table.ops mem, if_pos one]
  have halts : onDir d (sfsRename d (subpath oldpath) d (subpath newpath)) s₂ =
      .error (.kassert "g1->sv_i.sfi_type == SFS_TYPE_FILE") := by
    rw [onDir, Prog.andThen_of_run (a := s₂.vnode d) (t := s₂) rfl, ops]
    exact inv₂.sfsRename_root mem one root₂
  rw [vfsRename, Prog.andThen_of_run run, Prog.andThen_of_run (Prog.attempt_of_run run₂)]
  dsimp only
  rw [andAlways]
  exact Prog.andThen_of_halt (Prog.attempt_of_halt halts)

end

end PDS.Sfs
