import PDS.Sfs.Persist

/-!
# Runs of a file system

A file system is made by `mksfs` and mounted; then the calls of the VFS layer change it, one at a time. A caller
passes vnodes that are in the table, as it holds references to them, and requests whose buffers are as large as they
say. An operation that stops the machine ends a run.

In every state of a run the volume is in order: each block that the free map marks belongs to exactly one owner.
-/

namespace PDS.Sfs
open Kern Word

/-- The calls of the VFS layer. -/
inductive SfsOp where
  | getroot
  | lookup (v : Nat) (path : CStr)
  | creat (v : Nat) (name : CStr) (excl : Bool)
  | link (dir : Nat) (name : CStr) (file : Nat)
  | remove (dir : Nat) (name : CStr)
  | rename (d1 : Nat) (n1 : CStr) (d2 : Nat) (n2 : CStr)
  | read (v : Nat) (u : Uio)
  | write (v : Nat) (u : Uio)
  | truncate (v : Nat) (len : Int)
  | incref (v : Nat)
  | decref (v : Nat)
  | fsync (v : Nat)
  | sync

/-- Executes a call; the result is the vnode that is handed out, if any. -/
def SfsOp.exec : SfsOp → SfsM (Option Nat)
  | .getroot => do return some (← sfsGetroot)
  | .lookup v path => do return some (← onDir v (sfsLookup v path))
  | .creat v name excl => do return some (← onDir v (sfsCreat v name excl))
  | .link dir name file => do onDir dir (sfsLink dir name file); return none
  | .remove dir name => do onDir dir (sfsRemove dir name); return none
  | .rename d1 n1 d2 n2 => do onDir d1 (sfsRename d1 n1 d2 n2); return none
  | .read v u => do let _ ← withUio u (vopIo v .read); return none
  | .write v u => do let _ ← withUio u (vopIo v .write); return none
  | .truncate v len => do vopTruncate v len; return none
  | .incref v => do vopIncref v; return none
  | .decref v => do vopDecref v; return none
  | .fsync v => do sfsFsync v; return none
  | .sync => do sfsSync; return none

/-- The arguments of a call: vnodes that are in the table, and requests with buffers. -/
def SfsOp.Valid (s : SfsFs) : SfsOp → Prop
  | .getroot => True
  | .lookup v _ => v ∈ s.vnodes
  | .creat v _ _ => v ∈ s.vnodes
  | .link dir _ file => dir ∈ s.vnodes ∧ file ∈ s.vnodes
  | .remove dir _ => dir ∈ s.vnodes
  | .rename d1 _ d2 _ => d1 ∈ s.vnodes ∧ d2 ∈ s.vnodes
  | .read v u => v ∈ s.vnodes ∧ u.Ok ∧ u.rw = .read
  | .write v u => v ∈ s.vnodes ∧ u.Ok ∧ u.rw = .write
  | .truncate v _ => v ∈ s.vnodes
  | .incref v => v ∈ s.vnodes
  | .decref v => v ∈ s.vnodes
  | .fsync v => v ∈ s.vnodes
  | .sync => True

/-- The states of the runs whose calls all satisfy `P`. A volume may be unmounted, and its disk mounted again. -/
inductive Reach (P : SfsFs → SfsOp → Prop) : SfsFs → Prop
  | mount {arg : CStr} {d d' : Lhd} {s : SfsFs} : mksfs arg d = some d' → sfsDomount d' = .ok (.ok (), s) → Reach P s
  | remount {s s₁ s₂ s' : SfsFs} : Reach P s → sfsSync s = .ok (.ok (), s₁) → sfsUnmount s₁ = .ok (.ok (), s₂) →
      sfsDomount s₂.dev = .ok (.ok (), s') → Reach P s'
  | step {s s' : SfsFs} {op : SfsOp} {r : Except Nat (Option Nat)} : Reach P s → op.Valid s → P s op →
      op.exec s = .ok (r, s') → Reach P s'

section

variable {s s' : SfsFs} {P : SfsFs → SfsOp → Prop} {v sv i : Nat} {u : Uio}

/-- A file other than the directory has changed, but not its link count. -/
lemma Inv.did_file (h : Inv s) (ne : i ≠ 1) (core : Core s' s.Named) (frame : Frame s s')
    (files : ∀ j, s.Live s.Named j → j ≠ i → s'.file j = s.file j) (links : (s'.file i).links = (s.file i).links)
    (keeps : ∀ l, s.ptr 1 l ≠ 0 → s'.ptr 1 l ≠ 0) : Did s s.dir s.refs s' := by
  obtain ⟨inv, dir⟩ := h.of_core core (files 1 SfsFs.live_root ne.symm) keeps (by
    intro j hj
    have live := frame.live_iff.1 hj
    by_cases same : j = i
    · rw [same, links]
      exact h.links i (same ▸ live)
    · rw [files j live same]
      exact h.links j live) (by
    rw [frame.opens, frame.refs]
    exact h.held)
  exact ⟨inv, dir, frame.refs, frame.opens, frame.inos⟩

/-- What a write to a file does. -/
lemma Inv.did_writes (h : Inv s) (ne : i ≠ 1) (live : s.Live s.Named i) {f : File} (links : f.links = (s.file i).links)
    (writes : Writes s.Named s i f s') : Did s s.dir s.refs s' := by
  refine h.did_file ne writes.core writes.frame ?_ ?_ (fun l used => writes.keeps 1 l SfsFs.live_root used)
  · intro j hj other
    rw [writes.files j hj, Function.update_of_ne other]
  · rw [writes.file_self live, links]

/-- What a change to one file does. -/
lemma Inv.did_only (h : Inv s) (ne : i ≠ 1) (only : Only s.Named i s s') : Did s s.dir s.refs s' :=
  h.did_file ne only.core only.frame only.files only.links (fun l used => only.keeps 1 l SfsFs.live_root ne.symm used)

/-- What flushing does. -/
lemma Flushed.did (h : Inv s) (flushed : Flushed s.Named s s') : Did s s.dir s.refs s' := by
  obtain ⟨inv, dir⟩ := h.of_core flushed.core (flushed.files 1 SfsFs.live_root) (by
    intro l used
    rw [flushed.ptr 1 l SfsFs.live_root]
    exact used) (by
    intro j hj
    have live := flushed.frame.live_iff.1 hj
    rw [flushed.files j live]
    exact h.links j live) (by
    rw [flushed.frame.opens, flushed.frame.refs]
    exact h.held)
  exact ⟨inv, dir, flushed.frame.refs, flushed.frame.opens, flushed.frame.inos⟩

/-- Growing a file changes no link count. -/
@[simp] lemma File.links_grow (f : File) (stop : Nat) : (f.grow stop).links = f.links := by
  rw [File.grow]
  split_ifs
  · rfl
  · rfl

/-- Growing a file changes no byte. -/
lemma File.byte_grow (f : File) (stop : Nat) : (f.grow stop).byte = f.byte := by
  rw [File.grow]
  split_ifs
  · rfl
  · rfl

/-- A request to write some bytes. -/
lemma uioKinit_write_ok {bytes : List UInt8} {o : Nat} (small : bytes.length < 2 ^ 32) :
    (uioKinit bytes bytes.length o .write).Ok := by
  refine ⟨⟨?_, small⟩, fun _ => Nat.le_refl _⟩
  simp [uioKinit]

/-- A call that only directories support. -/
lemma Inv.wp_onDir (h : Inv s) (mem : v ∈ s.vnodes) {α : Type} {m : SfsM α} {Q : α → SfsFs → Prop}
    {E : Nat → SfsFs → Prop} (dir : (s.vnode v).ino = 1 → Prog.wp m Q E s) (file : (s.vnode v).ino ≠ 1 → E enotdir s) :
    Prog.wp (onDir v m) Q E s := by
  rw [onDir, Prog.wp_andThen_iff]
  refine Prog.wp_of_run rfl ?_
  have ops := h.core.table.ops mem
  by_cases one : (s.vnode v).ino = 1
  · rw [if_pos one] at ops
    rw [ops]
    exact dir one
  · rw [if_neg one] at ops
    rw [ops]
    exact file one

/-- A call that only regular files support. -/
lemma Inv.wp_vopIo (h : Inv s) (mem : v ∈ s.vnodes) (ok : u.Ok) :
    Prog.wp (vopIo v u.rw) (fun _ st => Did s s.dir s.refs st.1) (fun _ st => Did s s.dir s.refs st.1) (s, u) := by
  have live : s.Live s.Named (s.vnode v).ino := SfsFs.live_of_mem mem
  by_cases one : (s.vnode v).ino = 1
  · have ops : (s.vnode v).ops = .dir := by rw [h.core.table.ops mem, if_pos one]
    rw [vopIo.eq_def, Prog.wp_andThen_iff, Prog.wp_onFst_iff]
    refine Prog.wp_of_run rfl ?_
    rw [Prog.wp_andThen_iff]
    refine Prog.wp_of_run rfl ?_
    rw [ops]
    exact .refl h
  · refine h.core.wp_vopIo mem one ?_
    cases rw : u.rw with
    | read =>
      refine (h.core.wp_sfsIo_read mem ok rw rfl).mono ?_ ?_
      · rintro _ st ⟨rfl, -⟩
        exact .refl h
      · rintro e st ⟨m, -, rfl, -⟩
        exact .refl h
    | write =>
      refine (h.core.wp_sfsIo_write mem ok rw).mono ?_ ?_
      · intro _ st wrote
        exact h.did_writes one live (by rw [File.links_grow]; rfl) wrote.writes
      · rintro e st ⟨m, wrote, -⟩
        exact h.did_writes one live (by rw [File.links_grow]; rfl) wrote.writes

/-- The rule of `VOP_TRUNCATE`. -/
lemma Inv.wp_vopTruncate (h : Inv s) (mem : v ∈ s.vnodes) (len : Int) :
    Prog.wp (vopTruncate v len) (fun _ => Did s s.dir s.refs) (fun _ s' => s' = s) s := by
  have ops := h.core.table.ops mem
  rw [vopTruncate, Prog.wp_andThen_iff]
  refine Prog.wp_of_run rfl ?_
  by_cases one : (s.vnode v).ino = 1
  · rw [if_pos one] at ops
    rw [ops]
    rfl
  · rw [if_neg one] at ops
    rw [ops]
    refine (h.core.wp_sfsTruncate mem len).mono ?_ (fun _ _ e => e)
    rintro _ s' ⟨only, -⟩
    exact h.did_only one only

/-- The rule of `sfs_getroot`. -/
lemma Inv.wp_sfsGetroot (h : Inv s) {E : Nat → SfsFs → Prop} :
    Prog.wp sfsGetroot
      (fun sv s' => sv ∈ s'.vnodes ∧ (s'.vnode sv).ino = 1 ∧ Did s s.dir (Function.update s.refs sv (s.refs sv + 1)) s')
      E s := by
  rw [sfsGetroot, Prog.wp_andThen_iff, Prog.wp_attempt_iff]
  exact (h.wp_sfsLoadvnode SfsFs.live_root (E := fun _ _ => False)).mono (fun _ _ post => post) (fun _ _ no => no.elim)

/-- The rule of `sfs_fsync`. -/
lemma Inv.wp_sfsFsync (h : Inv s) (mem : v ∈ s.vnodes) {E : Nat → SfsFs → Prop} :
    Prog.wp (sfsFsync v) (fun _ => Did s s.dir s.refs) E s :=
  (h.core.wp_sfsSyncInode mem).mono (fun _ _ synced => synced.flushed.1.did h) (fun _ _ e => e)

/-- The rule of `sfs_sync`. -/
lemma Inv.wp_sfsSync (h : Inv s) {E : Nat → SfsFs → Prop} :
    Prog.wp sfsSync (fun _ s' => Did s s.dir s.refs s' ∧ Flushed s.Named s s' ∧ Clean s') E s :=
  h.core.wp_sfsSync.mono (fun _ _ post => ⟨post.1.did h, post⟩) (fun _ _ e => e)

/-- What `VOP_INCREF` does. -/
lemma Inv.did_incref (h : Inv s) (mem : v ∈ s.vnodes) :
    Did s s.dir (Function.update s.refs v (s.refs v + 1))
      (s.mapVnode v fun v => { v with refcount := v.refcount + 1 }) :=
  (h.core.loads_incref mem).did h (SfsFs.live_of_mem mem)

/-- A call whose value is not looked at. -/
lemma Prog.wp.done {α β : Type} {m : SfsM α} {g : α → β} {Q : SfsFs → Prop}
    (h : Prog.wp m (fun _ s => Q s) (fun _ s => Q s) s) :
    Prog.wp (do let a ← m; pure (g a) : SfsM β) (fun _ s => Q s) (fun _ s => Q s) s :=
  Prog.wp_andThen_iff.2 h

/-- A call returns only if it does not rename a name of the root directory, or between two directories. -/
lemma Inv.rename_returns (h : Inv s) {d1 d2 : Nat} {n1 n2 : CStr} {r : Except Nat (Option Nat)}
    (valid : (SfsOp.rename d1 n1 d2 n2).Valid s) (run : (SfsOp.rename d1 n1 d2 n2).exec s = .ok (r, s'))
    (dir : (s.vnode d1).ino = 1) : d1 = d2 ∧ s.dir n1.val ≠ some 1 := by
  have ops : (s.vnode d1).ops = .dir := by rw [h.core.table.ops valid.1, if_pos dir]
  have inner : onDir d1 (sfsRename d1 n1 d2 n2) s = sfsRename d1 n1 d2 n2 s := by
    rw [onDir, Prog.andThen_of_run (a := s.vnode d1) (t := s) rfl, ops]
  -- a call that stops the machine does not return
  have returns (x : Halt) : sfsRename d1 n1 d2 n2 s ≠ .error x := by
    intro halts
    rw [SfsOp.exec, Prog.andThen_of_halt (inner.trans halts)] at run
    cases run
  have same : d1 = d2 := by
    by_contra ne
    refine returns (.kassert "d1==d2") ?_
    rw [sfsRename, Prog.andThen_of_run (a := s.vnode d1) (t := s) rfl]
    exact Prog.andThen_of_halt (Prog.require_of_not ne)
  refine ⟨same, fun root => ?_⟩
  subst same
  exact returns _ (h.sfsRename_root valid.1 dir root)

/-- The inodes with a name after a call: those that had one before, new ones, and the one that is linked. -/
def NamesFrom (s : SfsFs) (op : SfsOp) (D : List UInt8 → Option Nat) : Prop :=
  ∀ name i, D name = some i → s.Named i ∨ ¬ s.Live s.Named i ∨ ∃ dir n file, op = .link dir n file ∧ (s.vnode file).ino = i

/-- The old names. -/
lemma NamesFrom.same {op : SfsOp} : NamesFrom s op s.dir := fun name _ named => .inl ⟨name, named⟩

/-- One name more. -/
lemma NamesFrom.insert {op : SfsOp} {D : List UInt8 → Option Nat} (h : NamesFrom s op D) {name : List UInt8}
    (new : s.Named i ∨ ¬ s.Live s.Named i ∨ ∃ dir n file, op = .link dir n file ∧ (s.vnode file).ino = i) :
    NamesFrom s op (Function.update D name (some i)) := by
  intro name' j named
  by_cases same : name' = name
  · rw [same, Function.update_self] at named
    rw [← Option.some.inj named]
    exact new
  · rw [Function.update_of_ne same] at named
    exact h name' j named

/-- One name less. -/
lemma NamesFrom.erase {op : SfsOp} {D : List UInt8 → Option Nat} (h : NamesFrom s op D) {name : List UInt8} :
    NamesFrom s op (Function.update D name none) := by
  intro name' j named
  by_cases same : name' = name
  · rw [same, Function.update_self] at named
    cases named
  · rw [Function.update_of_ne same] at named
    exact h name' j named

/-- What a call does. -/
lemma Inv.exec_did (h : Inv s) (closed : ∀ sv, s.opens sv = 0) {op : SfsOp} (valid : op.Valid s)
    {r : Except Nat (Option Nat)} (run : op.exec s = .ok (r, s')) : ∃ D R, Did s D R s' ∧ NamesFrom s op D := by
  have same {s' : SfsFs} {R : Nat → Nat} (did : Did s s.dir R s') : ∃ D R, Did s D R s' ∧ NamesFrom s op D :=
    ⟨_, _, did, .same⟩
  have nothing := same (.refl h)
  have spec : Prog.wp op.exec (fun _ s' => ∃ D R, Did s D R s' ∧ NamesFrom s op D)
      (fun _ s' => ∃ D R, Did s D R s' ∧ NamesFrom s op D) s := by
    cases op with
    | getroot =>
      refine Prog.wp.done (h.wp_sfsGetroot.mono ?_ (fun _ _ e => e))
      rintro sv s' ⟨-, -, did⟩
      exact same did
    | lookup v path =>
      refine Prog.wp.done (h.wp_onDir valid (fun dir => ?_) (fun _ => nothing))
      refine (h.wp_sfsLookup valid dir).mono (fun _ _ found => same found.did) ?_
      rintro e s' ⟨rfl, -⟩
      exact nothing
    | creat v name excl =>
      refine Prog.wp.done (h.wp_onDir valid (fun dir => ?_) (fun _ => nothing))
      refine (h.wp_sfsCreat valid dir excl).mono ?_ (fun _ _ err => same err.1)
      rintro sv s' (⟨-, found⟩ | created)
      · exact same found.did
      · exact ⟨_, _, created.did, .insert .same (.inr (.inl created.new))⟩
    | link dir name file =>
      refine Prog.wp.done (h.wp_onDir valid.1 (fun ino => ?_) (fun _ => nothing))
      refine (h.wp_sfsLink valid.1 ino valid.2).mono (fun _ _ post => ⟨_, _, post.2, ?_⟩) (fun _ _ err => same err.1)
      exact .insert .same (.inr (.inr ⟨_, _, _, rfl, rfl⟩))
    | remove dir name =>
      refine Prog.wp.done (h.wp_onDir valid (fun ino => ?_) (fun _ => nothing))
      refine (h.wp_sfsRemove valid ino).mono (fun _ _ post => ⟨_, _, post.2, .erase .same⟩) ?_
      rintro e s' ⟨rfl, -⟩
      exact nothing
    | rename d1 n1 d2 n2 =>
      refine Prog.wp.done (h.wp_onDir valid.1 (fun ino => ?_) (fun _ => nothing))
      obtain ⟨rfl, file⟩ := h.rename_returns valid run ino
      refine (h.wp_sfsRename valid.1 ino file).mono ?_ (fun _ _ err => same err.1)
      rintro _ s' ⟨i, named, -, did⟩
      exact ⟨_, _, did, .erase (.insert .same (.inl ⟨_, named⟩))⟩
    | read v u =>
      obtain ⟨mem, ok, rw⟩ := valid
      refine Prog.wp.done (wp_withUio ?_)
      rw [← rw]
      exact (h.wp_vopIo mem ok).mono (fun _ _ did => same did) (fun _ _ did => same did)
    | write v u =>
      obtain ⟨mem, ok, rw⟩ := valid
      refine Prog.wp.done (wp_withUio ?_)
      rw [← rw]
      exact (h.wp_vopIo mem ok).mono (fun _ _ did => same did) (fun _ _ did => same did)
    | truncate v len =>
      refine Prog.wp.done ((h.wp_vopTruncate valid len).mono (fun _ _ did => same did) ?_)
      rintro e s' rfl
      exact nothing
    | incref v => exact Prog.wp.done (Prog.wp_of_run rfl (same (h.did_incref valid)))
    | decref v =>
      have held : s.opens v < s.refs v := by
        rw [closed]
        exact h.core.table.mem_iff.1 valid
      exact Prog.wp.done ((h.wp_vopDecref held).mono (fun _ _ did => same did) (fun _ _ e => e))
    | fsync v => exact Prog.wp.done ((h.wp_sfsFsync valid).mono (fun _ _ did => same did) (fun _ _ e => e))
    | sync => exact Prog.wp.done (h.wp_sfsSync.mono (fun _ _ post => same post.1) (fun _ _ e => e))
  exact spec.of_return run (fun _ did => did) (fun _ did => did)

/-- The rule of `sfs_unmount`. -/
lemma Clean.wp_sfsUnmount (h : Clean s) :
    Prog.wp sfsUnmount (fun _ s' => s' = s ∧ s.vnodes = []) (fun e s' => e = ebusy ∧ s' = s) s := by
  rw [sfsUnmount, Prog.wp_andThen_iff, Prog.wp_get_iff]
  split_ifs with busy
  · exact ⟨rfl, rfl⟩
  · rw [Prog.wp_andThen_iff]
    refine Prog.wp.require h.super ?_
    exact Prog.wp.require h.map ⟨rfl, List.eq_nil_of_length_eq_zero (by omega)⟩

/-- The invariant holds in every state of a run. -/
lemma Reach.inv (reach : Reach P s) : Inv s ∧ ∀ sv, s.opens sv = 0 := by
  induction reach with
  | mount made run =>
    obtain ⟨volname, rfl, few, fits⟩ := mksfs_eq_some made
    rw [sfsDomount_eq (hasVolume_newsect few fits)] at run
    cases run
    refine ⟨(inv_newsect few fits).1, fun sv => ?_⟩
    rfl
  | remount _ synced unmounted run ih =>
    obtain ⟨did, -, clean⟩ := (ih.1.wp_sfsSync (E := fun _ _ => False)).of_ok synced
    obtain ⟨rfl, none⟩ := clean.wp_sfsUnmount.of_ok unmounted
    rw [sfsDomount_eq did.inv.core.hasVolume] at run
    cases run
    exact ⟨(did.inv.remount clean none).1, fun sv => rfl⟩
  | step _ valid _ run ih =>
    obtain ⟨D, R, did, -⟩ := ih.1.exec_did ih.2 valid run
    refine ⟨did.inv, fun sv => ?_⟩
    rw [did.opens]
    exact ih.2 sv

/-- A disk with eight blocks. -/
def smallDisk : Lhd := ⟨8, fun _ => Block.zeros⟩

/-- A new volume on it. -/
def smallVolume : SfsFs := mounted { smallDisk with sect := newsect [118] smallDisk }

/-- A small disk can be formatted. -/
lemma mksfs_smallDisk : mksfs ⟨[118], by decide⟩ smallDisk = some { smallDisk with sect := newsect [118] smallDisk } := by
  have name : volumeName ⟨[118], by decide⟩ = some [118] := by decide
  rw [mksfs, name]
  dsimp only
  rw [if_neg (by decide), if_neg (by decide), if_neg (by decide)]

/-- Its volume is reachable. -/
lemma reach_smallVolume : Reach P smallVolume := by
  have run := sfsDomount_eq (@hasVolume_newsect [118] smallDisk (by decide) (by decide))
  rw [← smallVolume] at run
  exact .mount mksfs_smallDisk run

/-- It has no name in it. -/
lemma dir_smallVolume (name : List UInt8) : smallVolume.dir name = none :=
  (inv_newsect (d := smallDisk) (by decide) (by decide)).2.2 name

/-- A run that gets the root directory of a new volume. -/
lemma exists_root (allowed : ∀ s, P s .getroot) :
    ∃ s v, Reach P s ∧ v ∈ s.vnodes ∧ (s.vnode v).ino = 1 ∧ ∀ name, s.dir name = none := by
  obtain ⟨s₀, start, empty⟩ : ∃ s₀, Reach P s₀ ∧ ∀ name, s₀.dir name = none :=
    ⟨smallVolume, reach_smallVolume, dir_smallVolume⟩
  obtain ⟨r, s, run, ok, err⟩ := Prog.wp_iff.1 (start.inv.1.wp_sfsGetroot (E := fun _ _ => False))
  cases r with
  | error e => exact (err e rfl).elim
  | ok v =>
    obtain ⟨mem, ino, did⟩ := ok v rfl
    have step : SfsOp.getroot.exec s₀ = .ok (.ok (some v), s) := by
      rw [SfsOp.exec]
      exact Prog.andThen_of_run run
    have valid : SfsOp.getroot.Valid s₀ := trivial
    refine ⟨s, v, start.step valid (allowed _) step, mem, ino, ?_⟩
    intro name
    rw [did.dir]
    exact empty name

/-- A request to write "abc" at the start of a file. -/
def abcUio : Uio := uioKinit [97, 98, 99] 3 0 .write

/-- A run that creates the file "a" on a new volume and writes "abc" to it: neither the inode nor the free map is on
the disk yet. -/
lemma exists_written : ∃ s i, Reach (fun _ _ => True) s ∧ 1 ∈ s.vnodes ∧ (s.vnode 1).ino = i ∧ s.dir [97] = some i ∧
    (s.vnode 1).dirty = true ∧ s.freemapdirty = true ∧ (s.file i).size = 3 ∧ (s.file i).bytes 0 3 = [97, 98, 99] := by
  have gets : Prog.outcome sfsGetroot smallVolume = .ok (.ok 0) := by decide +kernel
  have creates : Prog.outcome (do
      let _ ← sfsGetroot
      onDir 0 (sfsCreat 0 ⟨[97], by decide⟩ true)) smallVolume = .ok (.ok 1) := by decide +kernel
  have writes : Prog.outcome (do
      let _ ← sfsGetroot
      let _ ← onDir 0 (sfsCreat 0 ⟨[97], by decide⟩ true)
      let _ ← withUio abcUio (vopIo 1 .write)
      let s ← Prog.get
      pure ((s.vnode 1).dirty, s.freemapdirty, (s.vnode 1).i.size.toNat)) smallVolume = .ok (.ok (true, true, 3)) := by
    decide +kernel
  obtain ⟨s₁, run₁⟩ := Prog.run_of_outcome gets
  obtain ⟨s₂, run₂⟩ := Prog.run_of_outcome creates
  obtain ⟨s₃, run₃⟩ := Prog.run_of_outcome writes
  rw [Prog.andThen_of_run run₁] at run₂ run₃
  rw [Prog.andThen_of_run run₂] at run₃
  have start : Reach (fun _ _ => True) smallVolume := reach_smallVolume
  generalize smallVolume = s₀ at run₁ start
  obtain ⟨mem₁, ino₁, did₁⟩ := (start.inv.1.wp_sfsGetroot (E := fun _ _ => False)).of_ok run₁
  have reach₁ : Reach (fun _ _ => True) s₁ :=
    .step start (show SfsOp.getroot.Valid s₀ from trivial) trivial (Prog.andThen_of_run run₁)
  have inv₁ := did₁.inv
  have reach₂ : Reach (fun _ _ => True) s₂ :=
    .step reach₁ (show (SfsOp.creat 0 ⟨[97], by decide⟩ true).Valid s₁ from mem₁) trivial (Prog.andThen_of_run run₂)
  have spec₂ := inv₁.wp_onDir mem₁ (m := sfsCreat 0 ⟨[97], by decide⟩ true)
    (fun ino => inv₁.wp_sfsCreat mem₁ ino true) (fun no => absurd ino₁ no)
  obtain ⟨no, -⟩ | created := spec₂.of_ok run₂
  · cases no
  have inv₂ := created.did.inv
  have mem₂ := created.mem
  have file : (s₂.vnode 1).ino ≠ 1 := fun one => created.new (.inl one)
  -- the write returns without an error
  obtain ⟨r, t, run, ok, err⟩ := Prog.wp_iff.1 (Prog.wp_andThen_iff.1
    (Prog.wp_of_run (Q := fun r t => r = (true, true, 3) ∧ t = s₃) (E := fun _ _ => False) run₃ ⟨rfl, rfl⟩))
  cases r with
  | error e => exact (err e rfl).elim
  | ok u =>
    obtain ⟨values, same⟩ : ((t.vnode 1).dirty, t.freemapdirty, (t.vnode 1).i.size.toNat) = (true, true, 3) ∧ t = s₃ :=
      ok u rfl
    subst same
    have good : abcUio.Ok := uioKinit_write_ok (by decide)
    have reach₃ : Reach (fun _ _ => True) t :=
      .step reach₂ (show (SfsOp.write 1 abcUio).Valid s₂ from ⟨mem₂, good, rfl⟩) trivial (Prog.andThen_of_run run)
    have io : Prog.wp (withUio abcUio (vopIo 1 .write)) (fun _ t => Writes s₂.Named s₂ (s₂.vnode 1).ino
        (((s₂.file (s₂.vnode 1).ino).store 0 [97, 98, 99]).grow 3) t) (fun _ _ => True) s₂ := by
      refine wp_withUio ((inv₂.core.wp_vopIo mem₂ file (inv₂.core.wp_sfsIo_write mem₂ good rfl)).mono ?_ ?_)
      · exact fun _ _ wrote => wrote.writes
      · exact fun _ _ _ => trivial
    have writes := io.of_ok run
    have live : s₂.Live s₂.Named (s₂.vnode 1).ino := SfsFs.live_of_mem mem₂
    have did := inv₂.did_writes file live (by rw [File.links_grow]; rfl) writes
    have ino := writes.frame.ino 1
    have mem₃ : 1 ∈ t.vnodes := writes.frame.vnodes.symm ▸ mem₂
    have whole := writes.file_self live
    refine ⟨t, (s₂.vnode 1).ino, reach₃, mem₃, ino, ?_, ?_, ?_, ?_, ?_⟩
    · rw [did.dir, created.did.dir, Function.update_self]
    · exact congrArg Prod.fst values
    · exact congrArg (fun v => v.2.1) values
    · rw [← ino, SfsFs.file, did.inv.core.table.inode_eq mem₃]
      exact congrArg (fun v => v.2.2) values
    · rw [whole, File.bytes, File.byte_grow]
      exact File.bytes_store_self _ 0

/-- The blocks that the free map marks are those with an owner, and no block has two: the volume itself, an inode in
use, or the block map of an inode in use. No inode has two vnodes. -/
theorem sfs_blocks_owned (reach : Reach (fun _ _ => True) s) :
    (∀ b, s.Marked b ↔ ∃ o, s.Owns s.Named o b) ∧
      (∀ b o o', s.Owns s.Named o b → s.Owns s.Named o' b → o = o') ∧
      s.vnodes.Nodup ∧ ∀ sv ∈ s.vnodes, ∀ sw ∈ s.vnodes, (s.vnode sv).ino = (s.vnode sw).ino → sv = sw := by
  have core := reach.inv.1.core
  refine ⟨fun b => ⟨core.own.total, ?_⟩, fun b o o' => core.own.inj, core.table.nodup, ?_⟩
  · rintro ⟨o, own⟩
    exact core.own.sound own
  · intro sv mem sw mem' same
    exact core.table.inj mem mem' same

/-- The file has a name, an inode and one block. -/
theorem sfs_blocks_owned_written : ∃ s i, Reach (fun _ _ => True) s ∧ s.dir [97] = some i ∧ (s.file i).size = 3 ∧
    (∀ b, s.Marked b ↔ ∃ o, s.Owns s.Named o b) ∧
      ∀ b o o', s.Owns s.Named o b → s.Owns s.Named o' b → o = o' := by
  obtain ⟨s, i, reach, -, -, named, -, -, size, -⟩ := exists_written
  obtain ⟨marked, one, -⟩ := sfs_blocks_owned reach
  exact ⟨s, i, reach, named, size, marked, one⟩

/-- What `sfs_sync` leaves on the disk is mounted as the same volume: it has the same free map, the same names, and the
same files. -/
theorem sfs_sync_domount (reach : Reach (fun _ _ => True) s) :
    ∃ s' t, sfsSync s = .ok (.ok (), s') ∧ sfsDomount s'.dev = .ok (.ok (), t) ∧
      t.nblocks = s.nblocks ∧ (∀ b < bitmapsize s.nblocks, t.freemap b = s.freemap b) ∧ t.dir = s.dir ∧
      ∀ i, i = 1 ∨ s.Named i → t.file i = s.file i := by
  obtain ⟨r, s', run, ok, err⟩ := Prog.wp_iff.1 (reach.inv.1.wp_sfsSync (E := fun _ _ => False))
  cases r with
  | error e => exact (err e rfl).elim
  | ok =>
    obtain ⟨did, flushed, clean⟩ := ok () rfl
    have core := did.inv.core
    have size := flushed.frame.nblocks
    have file (i : Nat) (live : s.Live s.Named i) : (mounted s'.dev).file i = s.file i := by
      rw [core.file_mounted clean, flushed.files i live]
    refine ⟨s', mounted s'.dev, run, sfsDomount_eq core.hasVolume, ?_, ?_, ?_, ?_⟩
    · rw [core.nblocks_mounted, size]
    · intro b inside
      rw [← size] at inside
      rw [core.freemap_mounted clean inside, flushed.map]
    · rw [SfsFs.dir, file 1 SfsFs.live_root, SfsFs.dir]
    · rintro i (one | named)
      · exact file i (.inl one)
      · exact file i (.inr (.inl named))

/-- The inode of the file and the free map are dirty before the sync. -/
theorem sfs_sync_domount_written : ∃ s i s' t, Reach (fun _ _ => True) s ∧ (s.vnode 1).ino = i ∧
    (s.vnode 1).dirty = true ∧ s.freemapdirty = true ∧ sfsSync s = .ok (.ok (), s') ∧
    sfsDomount s'.dev = .ok (.ok (), t) ∧ t.dir [97] = some i ∧ (t.file i).size = 3 ∧
    (t.file i).bytes 0 3 = [97, 98, 99] := by
  obtain ⟨s, i, reach, -, ino, named, dirty, mapdirty, size, bytes⟩ := exists_written
  obtain ⟨s', t, synced, mount, -, -, dir, file⟩ := sfs_sync_domount reach
  have same := file i (.inr ⟨[97], named⟩)
  refine ⟨s, i, s', t, reach, ino, dirty, mapdirty, synced, mount, ?_, ?_, ?_⟩
  · rw [dir, named]
  · rw [same, size]
  · rw [same, bytes]

end

end PDS.Sfs
