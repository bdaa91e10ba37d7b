import PDS.Sfs.Run

/-!
# The directory as a finite map

The occupied slots of the root directory represent a finite map from names to inode numbers. `DirStep` says what the
operations on the directory do to it: they insert a name for a new file or for a file that exists, delete a name,
rename one, or fail and leave it as it is. Runs in which only regular files are linked never name the directory
itself, and there every operation returns.
-/

namespace PDS.Sfs
open Kern Word

/-- Only regular files are linked. -/
def RegularLinks (s : SfsFs) : SfsOp → Prop
  | .link _ _ file => (s.vnode file).i.type = typeFile
  | _ => True

/-- An operation on the root directory. -/
def SfsOp.OnRoot (s : SfsFs) : SfsOp → Prop
  | .lookup v _ => (s.vnode v).ino = 1
  | .creat v _ _ => (s.vnode v).ino = 1
  | .link dir _ _ => (s.vnode dir).ino = 1
  | .remove dir _ => (s.vnode dir).ino = 1
  | .rename d1 _ d2 _ => (s.vnode d1).ino = 1 ∧ (s.vnode d2).ino = 1
  | _ => False

/-- Why an operation on a directory with the map `D` fails. -/
def SfsOp.Fails (D : List UInt8 → Option Nat) : SfsOp → Nat → Prop
  | .lookup _ path, e => e = enoent ∧ D path.val = none
  | .creat _ name excl, e => WhyNoCreat (D name.val) name excl e
  | .link _ name _, e => WhyNoLink (D name.val) name e
  | .remove _ name, e => e = enoent ∧ D name.val = none
  | .rename _ n1 _ n2, e => e = enoent ∧ D n1.val = none ∨ D n1.val ≠ none ∧ WhyNoLink (D n2.val) n2 e
  | _, _ => False

/-- What an operation on the root directory does to the map and to the link counts. -/
inductive DirStep (s s' : SfsFs) : SfsOp → Except Nat (Option Nat) → Prop
  | lookup {v sv : Nat} {path : CStr} :
      s.dir path.val = some (s'.vnode sv).ino → s'.dir = s.dir → DirStep s s' (.lookup v path) (.ok (some sv))
  /-- the name exists -/
  | found {v sv : Nat} {name : CStr} :
      s.dir name.val = some (s'.vnode sv).ino → s'.dir = s.dir → DirStep s s' (.creat v name false) (.ok (some sv))
  | creat {v sv : Nat} {name : CStr} {excl : Bool} :
      s.dir name.val = none → ¬ s.Live s.Named (s'.vnode sv).ino →
      s'.dir = Function.update s.dir name.val (some (s'.vnode sv).ino) →
      DirStep s s' (.creat v name excl) (.ok (some sv))
  | link {dir file : Nat} {name : CStr} :
      s.dir name.val = none → s'.dir = Function.update s.dir name.val (some (s.vnode file).ino) →
      DirStep s s' (.link dir name file) (.ok none)
  | remove {dir : Nat} {name : CStr} :
      s.dir name.val ≠ none → s'.dir = Function.update s.dir name.val none →
      DirStep s s' (.remove dir name) (.ok none)
  | rename {d1 d2 i : Nat} {n1 n2 : CStr} :
      s.dir n1.val = some i → s.dir n2.val = none →
      s'.dir = Function.update (Function.update s.dir n2.val (some i)) n1.val none →
      DirStep s s' (.rename d1 n1 d2 n2) (.ok none)
  | error {op : SfsOp} {e : Nat} :
      op.Fails s.dir e → s'.dir = s.dir → (∀ i, s.Live s.Named i → (s'.file i).links = (s.file i).links) →
      DirStep s s' op (.error e)

section

variable {s s' : SfsFs} {v i : Nat}

/-- An operation that does nothing to the map and to the references does nothing to the link counts. -/
lemma Did.links_eq (h : Inv s) (did : Did s s.dir s.refs s') (live : s.Live s.Named i) :
    (s'.file i).links = (s.file i).links := by
  have live' : s'.Live s'.Named i := by
    obtain one | named | ⟨sv, mem, rfl⟩ := live
    · exact .inl one
    · refine .inr (.inl ?_)
      rw [SfsFs.Named, did.dir]
      exact named
    · refine .inr (.inr ⟨sv, ?_, did.inos.ino sv (h.core.table.below mem)⟩)
      rw [did.inv.core.table.mem_iff, did.refs]
      exact h.core.table.mem_iff.1 mem
  apply UInt16.toNat_inj.1
  rw [did.inv.links i live', h.links i live, did.dir]

/-- A call that fails for a reason of its own leaves the map. -/
lemma Did.error (h : Inv s) {op : SfsOp} {e : Nat} (did : Did s s.dir s.refs s') (why : op.Fails s.dir e) :
    DirStep s s' op (.error e) :=
  .error why did.dir (fun _ live => did.links_eq h live)

/-- The directory has no name of its own. -/
lemma Reach.root_unnamed (reach : Reach RegularLinks s) : ¬ s.Named 1 := by
  induction reach with
  | mount made run =>
    obtain ⟨volname, rfl, few, fits⟩ := mksfs_eq_some made
    rw [sfsDomount_eq (hasVolume_newsect few fits)] at run
    cases run
    rintro ⟨name, named⟩
    rw [(inv_newsect few fits).2.2 name] at named
    cases named
  | remount before synced unmounted run ih =>
    obtain ⟨did, -, clean⟩ := (before.inv.1.wp_sfsSync (E := fun _ _ => False)).of_ok synced
    obtain ⟨rfl, none⟩ := clean.wp_sfsUnmount.of_ok unmounted
    rw [sfsDomount_eq did.inv.core.hasVolume] at run
    cases run
    rw [SfsFs.Named, (did.inv.remount clean none).2, did.dir]
    exact ih
  | @step s s' op r before valid regular run ih =>
    obtain ⟨inv, closed⟩ := before.inv
    obtain ⟨D, R, did, names⟩ := inv.exec_did closed valid run
    rintro ⟨name, named⟩
    rw [did.dir] at named
    obtain old | new | ⟨dir, n, file, rfl, one⟩ := names name 1 named
    · exact ih old
    · exact new SfsFs.live_root
    · have type := (inv.dir_type valid.2).2 one
      rw [show (s.vnode file).i.type = typeFile from regular] at type
      cases type

/-- An operation on the root directory returns, and does what it should. -/
lemma Inv.wp_exec_onRoot (h : Inv s) (unnamed : ¬ s.Named 1) {op : SfsOp} (valid : op.Valid s) (root : op.OnRoot s) :
    Prog.wp op.exec (fun r s' => DirStep s s' op (.ok r)) (fun e s' => DirStep s s' op (.error e)) s := by
  cases op with
  | lookup v path =>
    refine Prog.wp_andThen_iff.2 (h.wp_onDir valid (fun _ => ?_) (fun no => absurd root no))
    refine (h.wp_sfsLookup valid root).mono (fun _ _ found => .lookup found.dir found.did.dir) ?_
    rintro e s' ⟨rfl, none, absent⟩
    exact Did.error h (.refl h) ⟨none, absent⟩
  | creat v name excl =>
    refine Prog.wp_andThen_iff.2 (h.wp_onDir valid (fun _ => ?_) (fun no => absurd root no))
    refine (h.wp_sfsCreat valid root excl).mono ?_ (fun _ _ err => err.1.error h err.2)
    rintro sv s' (⟨rfl, found⟩ | created)
    · exact .found found.dir found.did.dir
    · exact .creat created.absent created.new created.did.dir
  | link dir name file =>
    refine Prog.wp_andThen_iff.2 (h.wp_onDir valid.1 (fun _ => ?_) (fun no => absurd root no))
    exact (h.wp_sfsLink valid.1 root valid.2).mono (fun _ _ post => .link post.1 post.2.dir)
      (fun _ _ err => err.1.error h err.2)
  | remove dir name =>
    refine Prog.wp_andThen_iff.2 (h.wp_onDir valid (fun _ => ?_) (fun no => absurd root no))
    refine (h.wp_sfsRemove valid root).mono (fun _ _ post => .remove post.1 post.2.dir) ?_
    rintro e s' ⟨rfl, none, absent⟩
    exact Did.error h (.refl h) ⟨none, absent⟩
  | rename d1 n1 d2 n2 =>
    obtain ⟨one, two⟩ := root
    obtain rfl := h.core.table.inj valid.1 valid.2 (one.trans two.symm)
    refine Prog.wp_andThen_iff.2 (h.wp_onDir valid.1 (fun _ => ?_) (fun no => absurd one no))
    refine (h.wp_sfsRename valid.1 one (fun named => unnamed ⟨_, named⟩)).mono ?_ (fun _ _ err => err.1.error h err.2)
    rintro _ s' ⟨i, named, absent, did⟩
    exact .rename named absent did.dir
  | _ => exact root.elim

/-- The root directory is a finite map from names to inode numbers. -/
theorem sfs_dir_refines_map (reach : Reach RegularLinks s) :
    (s.file 1).slots.Distinct ∧
      (∀ name i, s.dir name = some i ↔ ∃ slot, (s.file 1).slots slot = some (name, i)) ∧
      (∀ i, s.Live s.Named i → (s.file i).type = typeFile →
        (s.file i).links.toNat = { name | s.dir name = some i }.ncard) ∧
      ∀ op : SfsOp, op.Valid s → op.OnRoot s → ∃ r s', op.exec s = .ok (r, s') ∧ DirStep s s' op r := by
  obtain ⟨inv, -⟩ := reach.inv
  refine ⟨inv.root.distinct, fun name i => inv.root.distinct.map_eq_some, ?_, ?_⟩
  · intro i live type
    have notRoot : i ≠ 1 := by
      rintro rfl
      rw [show (s.file 1).type = typeDir from inv.core.type live] at type
      cases type
    rw [inv.links i live, if_neg notRoot]
    rfl
  · intro op valid root
    obtain ⟨r, s', run, ok, err⟩ := Prog.wp_iff.1 (inv.wp_exec_onRoot reach.root_unnamed valid root)
    refine ⟨r, s', run, ?_⟩
    cases r with
    | error e => exact err e rfl
    | ok r => exact ok r rfl

/-- A file created in a fresh volume. -/
theorem sfs_dir_refines_map_creat : ∃ s v r s', Reach RegularLinks s ∧
    (SfsOp.creat v ⟨[97], by decide⟩ true).exec s = .ok (r, s') ∧
    DirStep s s' (.creat v ⟨[97], by decide⟩ true) r := by
  obtain ⟨s, v, reach, mem, ino, -⟩ := exists_root (P := RegularLinks) (fun _ => trivial)
  obtain ⟨r, s', run, step⟩ := (sfs_dir_refines_map reach).2.2.2 (.creat v ⟨[97], by decide⟩ true) mem ino
  exact ⟨s, v, r, s', reach, run, step⟩

end

end PDS.Sfs
