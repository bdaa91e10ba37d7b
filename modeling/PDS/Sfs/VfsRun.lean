import PDS.Sfs.VfsInv
import PDS.Sfs.DirMap

/-!
# Runs of the VFS layer

Calls with arbitrary paths and flags change a consistent volume, one at a time. A caller closes the vnodes that
`vfs_open` has handed out to it, each as often as it has opened it.

`sfs_link` does not look at the type of the file, and a path with nothing after its colon or slash stands for the root
directory. So `vfs_link` can give the root directory a name, and `vfs_rename` of this name stops the machine. There is
no other way to stop it.
-/

namespace PDS.Sfs
open Kern Word

/-- A caller closes what it has opened. -/
def VfsOp.Valid (handles : List Nat) : VfsOp → Prop
  | .close vn => vn ∈ handles
  | _ => True

/-- The open vnodes of the callers after a call. -/
def VfsOp.handles (handles : List Nat) : VfsOp → Except Nat (Option Nat) → List Nat
  | .open _ _, .ok (some vn) => vn :: handles
  | .close vn, _ => handles.erase vn
  | _, _ => handles

/-- A call links the root directory. -/
def VfsOp.LinksRoot (k : Vfs) : VfsOp → Prop
  | .link oldpath _ => k.Starts oldpath ∧ (subpath oldpath).val = []
  | _ => False

/-- A call renames a name of the root directory. -/
def VfsOp.RenamesRoot (k : Vfs) (s : SfsFs) : VfsOp → Prop
  | .rename oldpath newpath => k.Parent oldpath ∧ k.Parent newpath ∧ s.dir (subpath oldpath).val = some 1
  | _ => False

/-- A consistent volume to which the VFS layer has its references. The root directory has no name. -/
structure Vfs.Consistent (k : Vfs) (s : SfsFs) : Prop where
  inv : Inv s
  unnamed : ¬ s.Named 1
  held : ∀ sv, s.opens sv + k.dirs.count sv ≤ s.refs sv
  root : ∀ sv ∈ k.dirs, (s.vnode sv).ino = 1

/-- The states of the runs whose calls all satisfy `P`, with the open vnodes of the callers. -/
inductive VfsRun (P : VfsOp → Prop) (k : Vfs) : SfsFs → List Nat → Prop
  | start {s : SfsFs} : k.Consistent s → VfsRun P k s []
  | call {s s' : SfsFs} {handles : List Nat} {op : VfsOp} {r : Except Nat (Option Nat)} : VfsRun P k s handles →
      op.Valid handles → P op → op.exec k s = .ok (r, s') → VfsRun P k s' (op.handles handles r)

/-- The invariant of a run: an open vnode has its references, apart from those of the VFS layer. -/
structure VfsInv (k : Vfs) (s : SfsFs) (handles : List Nat) : Prop where
  inv : Inv s
  opened : ∀ sv, handles.count sv ≤ s.opens sv
  held : ∀ sv, s.opens sv + k.dirs.count sv ≤ s.refs sv
  root : ∀ sv ∈ k.dirs, (s.vnode sv).ino = 1

section

variable {k : Vfs} {s s' : SfsFs} {handles handles' : List Nat} {D : List UInt8 → Option Nat} {R O : Nat → Nat} {op : VfsOp}
  {P : VfsOp → Prop}

/-- The directories are the root. -/
lemma VfsInv.atRoot (h : VfsInv k s handles) : k.AtRoot s := by
  intro sv mem
  have held := h.held sv
  have pos := List.count_pos_iff.2 mem
  exact ⟨h.inv.core.table.mem_iff.2 (by omega), h.root sv mem⟩

/-- A call keeps the invariant if its references and open counts add up. -/
lemma VfsInv.after (h : VfsInv k s handles) (did : DidOpen s D R O s') (opened : ∀ sv, handles'.count sv ≤ O sv)
    (held : ∀ sv, O sv + k.dirs.count sv ≤ R sv) : VfsInv k s' handles' := by
  refine ⟨did.inv, ?_, ?_, ?_⟩
  · rw [did.opens]
    exact opened
  · rw [did.opens, did.refs]
    exact held
  · intro sv mem
    obtain ⟨mem', ino⟩ := h.atRoot sv mem
    rw [did.inos.ino sv (h.inv.core.table.below mem'), ino]

/-- A step that changes no count. -/
lemma VfsInv.same (h : VfsInv k s handles) (did : Did s D s.refs s') : VfsInv k s' handles :=
  h.after did.open h.opened h.held

/-- A handle more. -/
lemma VfsInv.opens (h : VfsInv k s handles) {vn : Nat} (did : DidOpen s D (incr s.refs vn) (incr s.opens vn) s') :
    VfsInv k s' (vn :: handles) := by
  refine h.after did ?_ ?_
  · intro sv
    have opened := h.opened sv
    rw [List.count_cons, incr_apply]
    by_cases e : sv = vn
    · simp only [e, beq_self_eq_true, if_true] at opened ⊢
      omega
    · simp only [e, if_false, beq_iff_eq, Ne.symm e]
      omega
  · intro sv
    have held := h.held sv
    rw [incr_apply, incr_apply]
    omega

/-- A handle less. -/
lemma VfsInv.closes (h : VfsInv k s handles) {vn : Nat} (mem : vn ∈ handles)
    (did : DidOpen s D (decr s.refs vn) (decr s.opens vn) s') : VfsInv k s' (handles.erase vn) := by
  refine h.after did ?_ ?_
  · intro sv
    have opened := h.opened sv
    rw [List.count_erase, decr_apply]
    by_cases e : sv = vn
    · simp only [e, beq_self_eq_true, if_true] at opened ⊢
      omega
    · simp only [e, if_false, beq_iff_eq, Ne.symm e]
      omega
  · intro sv
    have held := h.held sv
    have opened := h.opened sv
    have pos := List.count_pos_iff.2 mem
    rw [decr_apply, decr_apply]
    by_cases e : sv = vn
    · rw [if_pos e]
      rw [e] at held opened ⊢
      omega
    · rw [if_neg e]
      omega

/-- What a call does to a run: it keeps the invariant, and names the root directory only if it links it. -/
structure VfsStep (k : Vfs) (s : SfsFs) (op : VfsOp) (handles : List Nat) (s' : SfsFs) : Prop where
  inv : VfsInv k s' handles
  named : s'.Named 1 → s.Named 1 ∨ op.LinksRoot k

/-- A step that keeps the invariant is a step of the vfs level. -/
lemma VfsInv.step (h : VfsInv k s' handles') (dir : s'.dir = D) (names : NoNewRoot s D) : VfsStep k s op handles' s' where
  inv := h
  named := by
    rintro ⟨name, named⟩
    rw [dir] at named
    exact .inl (names name named)

/-- A call that does not rename a name of the root directory returns. -/
lemma VfsInv.wp_exec (h : VfsInv k s handles) (valid : op.Valid handles) (no : ¬ op.RenamesRoot k s) :
    Prog.wp (op.exec k) (fun r s' => VfsStep k s op (op.handles handles (.ok r)) s')
      (fun e s' => VfsStep k s op (op.handles handles (.error e)) s') s := by
  have dirs := h.atRoot
  have nothing {s' : SfsFs} (did : Did s s.dir s.refs s') : VfsStep k s op handles s' := (h.same did).step did.dir .same
  cases op with
  | «open» path openflags =>
    rw [VfsOp.exec, Prog.wp_andThen_iff]
    refine (h.inv.wp_vfsOpen dirs path openflags).mono ?_ ?_
    · rintro vn s' ⟨D, names, did⟩
      exact (h.opens did).step did.dir names
    · rintro e s' ⟨D, names, did⟩
      exact (h.same did).step did.dir names
  | close vn =>
    have mem : vn ∈ handles := valid
    have pos : 0 < s.opens vn := (List.count_pos_iff.2 mem).trans_le (h.opened vn)
    rw [VfsOp.exec, Prog.wp_andThen_iff]
    refine (h.inv.wp_vfsClose pos).mono ?_ (fun _ _ e => e)
    intro _ s' did
    exact (h.closes mem did).step did.dir .same
  | link oldpath newpath =>
    rw [VfsOp.exec, Prog.wp_andThen_iff]
    refine (h.inv.wp_vfsLink dirs oldpath newpath).mono ?_ (fun _ _ did => nothing did)
    rintro _ s' ⟨D, names, did⟩
    obtain names | whole := names
    · exact (h.same did).step did.dir names
    · exact ⟨h.same did, fun _ => .inr whole⟩
  | remove path =>
    rw [VfsOp.exec, Prog.wp_andThen_iff]
    refine (h.inv.wp_vfsRemove dirs path).mono ?_ (fun _ _ did => nothing did)
    rintro _ s' ⟨D, names, did⟩
    exact (h.same did).step did.dir names
  | rename oldpath newpath =>
    have file (parent : k.Parent oldpath) (parent₂ : k.Parent newpath) : s.dir (subpath oldpath).val ≠ some 1 :=
      fun root => no ⟨parent, parent₂, root⟩
    rw [VfsOp.exec, Prog.wp_andThen_iff]
    refine (h.inv.wp_vfsRename dirs oldpath newpath file).mono ?_ (fun _ _ did => nothing did)
    rintro _ s' ⟨D, names, did⟩
    exact (h.same did).step did.dir names

/-- A call that renames a name of the root directory stops the machine. -/
lemma VfsInv.exec_root (h : VfsInv k s handles) (root : op.RenamesRoot k s) :
    op.exec k s = .error (.kassert "g1->sv_i.sfi_type == SFS_TYPE_FILE") := by
  cases op with
  | rename oldpath newpath =>
    obtain ⟨parent, parent₂, root⟩ := root
    rw [VfsOp.exec]
    exact Prog.andThen_of_halt (h.inv.vfsRename_root h.atRoot parent parent₂ root)
  | _ => exact root.elim

/-- A call that returns makes a step. -/
lemma VfsInv.exec_step (h : VfsInv k s handles) (valid : op.Valid handles) {r : Except Nat (Option Nat)}
    (run : op.exec k s = .ok (r, s')) : VfsStep k s op (op.handles handles r) s' := by
  have no : ¬ op.RenamesRoot k s := by
    intro root
    rw [h.exec_root root] at run
    cases run
  have spec := h.wp_exec valid no
  cases r with
  | error e => exact spec.of_error run
  | ok r => exact spec.of_ok run

/-- The invariant holds at the start. -/
lemma Vfs.Consistent.vfsInv (h : k.Consistent s) : VfsInv k s [] := by
  refine ⟨h.inv, ?_, h.held, h.root⟩
  intro sv
  exact Nat.zero_le _

/-- The invariant holds over a run. -/
lemma VfsRun.inv (run : VfsRun P k s handles) : VfsInv k s handles := by
  induction run with
  | start consistent => exact consistent.vfsInv
  | call _ valid _ exec ih => exact (ih.exec_step valid exec).inv

/-- Where the root directory is not linked, it has no name. -/
lemma VfsRun.root_unnamed (run : VfsRun P k s handles) (files : ∀ op, P op → ¬ op.LinksRoot k) : ¬ s.Named 1 := by
  induction run with
  | start consistent => exact consistent.unnamed
  | call before valid allowed exec ih =>
    intro named
    obtain old | links := (before.inv.exec_step valid exec).named named
    · exact ih old
    · exact files _ allowed links

/-- A volume of a run that the callers of the vnode operations have made is consistent. -/
lemma Reach.consistent (reach : Reach RegularLinks s) (held : ∀ sv, k.dirs.count sv ≤ s.refs sv)
    (root : ∀ sv ∈ k.dirs, (s.vnode sv).ino = 1) : k.Consistent s := by
  obtain ⟨inv, closed⟩ := reach.inv
  refine ⟨inv, reach.root_unnamed, ?_, root⟩
  intro sv
  rw [closed, Nat.zero_add]
  exact held sv

/-- A call of a run returns if and only if it does not rename a name of the root directory; and where the run does not link
the root directory, it returns. -/
theorem vfs_calls_return (run : VfsRun P k s handles) (valid : op.Valid handles) :
    ((∃ r s', op.exec k s = .ok (r, s')) ↔ ¬ op.RenamesRoot k s) ∧
      ((∀ op, P op → ¬ op.LinksRoot k) → ∃ r s', op.exec k s = .ok (r, s')) := by
  have returns (no : ¬ op.RenamesRoot k s) : ∃ r s', op.exec k s = .ok (r, s') := by
    obtain ⟨r, s', exec, -, -⟩ := Prog.wp_iff.1 (run.inv.wp_exec valid no)
    exact ⟨r, s', exec⟩
  refine ⟨⟨?_, returns⟩, ?_⟩
  · rintro ⟨r, s', exec⟩ root
    rw [run.inv.exec_root root] at exec
    cases exec
  · intro files
    apply returns
    intro root
    cases op with
    | rename oldpath newpath => exact run.root_unnamed files ⟨_, root.2.2⟩
    | _ => exact root.elim

/-- The VFS layer with the volume `v` on the device `lhd0`. -/
def smallVfs : Vfs := ⟨[108, 104, 100, 48], [118], none, none⟩

/-- The small volume is a start. -/
lemma consistent_smallVolume : smallVfs.Consistent smallVolume :=
  reach_smallVolume.consistent (fun _ => Nat.zero_le _) (nofun)

/-- Opening `v:a` with `O_RDWR | O_CREAT` returns. -/
theorem vfs_calls_return_small : ∃ r s, (VfsOp.open ⟨[118, 58, 97], by decide⟩ 6).exec smallVfs smallVolume = .ok (r, s) := by
  have run : VfsRun (fun op => ¬ op.LinksRoot smallVfs) smallVfs smallVolume [] := .start consistent_smallVolume
  have valid : (VfsOp.open ⟨[118, 58, 97], by decide⟩ 6).Valid [] := trivial
  exact (vfs_calls_return run valid).2 fun _ file => file

/-- `vfs_link("v:", "v:x")` names the root directory, and `vfs_rename("v:x", "v:y")` stops the machine. -/
theorem vfs_rename_root : ∃ s handles, VfsRun (fun _ => True) smallVfs s handles ∧
    (VfsOp.rename ⟨[118, 58, 120], by decide⟩ ⟨[118, 58, 121], by decide⟩).exec smallVfs s =
      .error (.kassert "g1->sv_i.sfi_type == SFS_TYPE_FILE") := by
  have linked : Prog.outcome ((VfsOp.link ⟨[118, 58], by decide⟩ ⟨[118, 58, 120], by decide⟩).exec smallVfs) smallVolume =
      .ok (.ok none) := by decide +kernel
  have halts : Prog.outcome (do
      let _ ← (VfsOp.link ⟨[118, 58], by decide⟩ ⟨[118, 58, 120], by decide⟩).exec smallVfs
      (VfsOp.rename ⟨[118, 58, 120], by decide⟩ ⟨[118, 58, 121], by decide⟩).exec smallVfs) smallVolume =
      .error (.kassert "g1->sv_i.sfi_type == SFS_TYPE_FILE") := by decide +kernel
  obtain ⟨s, run⟩ := Prog.run_of_outcome linked
  have stops := Prog.halt_of_outcome halts
  rw [Prog.andThen_of_run run] at stops
  have valid : (VfsOp.link ⟨[118, 58], by decide⟩ ⟨[118, 58, 120], by decide⟩).Valid [] := trivial
  exact ⟨s, _, .call (.start consistent_smallVolume) valid trivial run, stops⟩

end

end PDS.Sfs
