import PDS.Sfs.Discard
import PDS.Sfs.Kept
import PDS.Sfs.Tree

/-!
# A volume does what its callers see

Every call on a volume is a step of the abstract volume with the same result (`Refines.wp_serve`, one lemma for each
kind of call), and so is unmounting it and mounting its disk again. By the rule for simulations every run of a volume is
a run of the abstract volume. `Refines` relates a volume to what its callers see, and keeps the invariant.
-/

namespace PDS.Sfs
open Kern Word

/-- A volume that is in order, and what its callers see: the names, the references, the files of the vnodes, and the
contents of the regular files in use. The root directory has no name. -/
structure Refines (s : SfsFs) (t : Tree) : Prop where
  inv : Inv s
  closed : ∀ sv, s.opens sv = 0
  unnamed : ∀ name, s.dir name ≠ some 1
  dir : t.dir = s.dir
  refs : t.refs = s.refs
  ino : ∀ v ∈ s.vnodes, t.ino v = (s.vnode v).ino
  body : ∀ i ≠ 1, s.Live s.Named i → (s.file i).body = (t.size i, t.byte i)

/-- What a call has done is a step of the abstract volume. -/
def Matched (t : Tree) (op : SfsOp) (r : Except Nat Answer) (s' : SfsFs) : Prop := ∃ t', t.Step op r t' ∧ Refines s' t'

section

variable {s s' : SfsFs} {t : Tree} {v sv i : Nat} {name : CStr} {u : Uio} {D : List UInt8 → Option Nat}

/-- Sizes agree. -/
lemma Refines.size_eq (ref : Refines s t) (ne : i ≠ 1) (live : s.Live s.Named i) : (s.file i).size = t.size i :=
  congrArg Prod.fst (ref.body i ne live)

/-- Bytes agree. -/
lemma Refines.byte_eq (ref : Refines s t) (ne : i ≠ 1) (live : s.Live s.Named i) : (s.file i).byte = t.byte i :=
  congrArg Prod.snd (ref.body i ne live)

/-- Live files agree. -/
lemma Refines.live_iff (ref : Refines s t) : t.Live i ↔ s.Live s.Named i := by
  have loaded : (∃ v, 0 < t.refs v ∧ t.ino v = i) ↔ s.Loaded i := by
    refine exists_congr fun v => ?_
    rw [ref.refs, ← ref.inv.core.table.mem_iff]
    refine and_congr_right fun mem => ?_
    rw [ref.ino v mem]
  rw [Tree.Live, loaded, ref.dir]
  exact Iff.rfl

/-- The vnode of a file that has been looked up is the handle for it. -/
lemma Refines.hands (ref : Refines s t) (did : Did s D (Function.update s.refs sv (s.refs sv + 1)) s')
    (mem : sv ∈ s'.vnodes) : t.Hands sv (s'.vnode sv).ino := by
  intro w held
  rw [ref.refs, ← ref.inv.core.table.mem_iff] at held
  obtain ⟨mem', ino⟩ := did.keeps ref.inv held
  rw [ref.ino w held, ← ino]
  constructor
  · exact did.inv.core.table.inj mem' mem
  · rintro rfl
    rfl

/-- A step that leaves the contents of files alone. -/
lemma Refines.does {R : Nat → Nat} (ref : Refines s t) (does : Does s D R s') (unnamed : ∀ name, D name ≠ some 1)
    {ino : Nat → Nat} (same : ∀ w ∈ s'.vnodes, ino w = (s'.vnode w).ino) :
    Refines s' { t with dir := D, refs := R, ino := ino } where
  inv := does.inv
  closed w := by rw [does.opens, ref.closed]
  unnamed := by
    rw [does.dir]
    exact unnamed
  dir := does.dir.symm
  refs := does.refs.symm
  ino := same
  body j ne live := by
    obtain ⟨live', same'⟩ := does.kept j ne live
    rw [same', ref.body j ne live']

/-- The files of the vnodes stay when no vnode is added. -/
lemma Refines.inos {R : Nat → Nat} (ref : Refines s t) (did : Did s D R s') (less : ∀ w, R w ≤ s.refs w) :
    ∀ w ∈ s'.vnodes, t.ino w = (s'.vnode w).ino := by
  intro w mem
  rw [did.inv.core.table.mem_iff, did.refs] at mem
  have mem' : w ∈ s.vnodes := ref.inv.core.table.mem_iff.2 (mem.trans_le (less w))
  rw [did.inos.ino w (ref.inv.core.table.below mem'), ref.ino w mem']

/-- A step on names. -/
lemma Refines.names (ref : Refines s t) (does : Does s D s.refs s') (unnamed : ∀ name, D name ≠ some 1) :
    Refines s' { t with dir := D } := by
  have step := ref.does does unnamed (ref.inos does.toDid fun _ => Nat.le_refl _)
  rw [← ref.refs] at step
  exact step

/-- A step that leaves everything alone. -/
lemma Refines.nothing (ref : Refines s t) (does : Does s s.dir s.refs s') : Refines s' t := by
  have step := ref.names does ref.unnamed
  rw [← ref.dir] at step
  exact step

/-- A step that hands out a vnode. -/
lemma Refines.holds (ref : Refines s t) (does : Does s D (Function.update s.refs sv (s.refs sv + 1)) s')
    (unnamed : ∀ name, D name ≠ some 1) (ino : (s'.vnode sv).ino = i) :
    Refines s' ({ t with dir := D }.hold sv i) := by
  have same : ∀ w ∈ s'.vnodes, Function.update t.ino sv i w = (s'.vnode w).ino := by
    intro w mem
    by_cases here : w = sv
    · rw [here, Function.update_self, ino]
    · rw [Function.update_of_ne here]
      rw [does.inv.core.table.mem_iff, does.refs, Function.update_of_ne here, ← ref.inv.core.table.mem_iff] at mem
      rw [does.inos.ino w (ref.inv.core.table.below mem), ref.ino w mem]
  have step := ref.does does unnamed same
  rw [← ref.refs] at step
  exact step

/-- A step that hands out the vnode of a file that is there. -/
lemma Refines.found (ref : Refines s t) (does : Does s s.dir (Function.update s.refs sv (s.refs sv + 1)) s') :
    Refines s' (t.hold sv (s'.vnode sv).ino) := by
  have step := ref.holds does ref.unnamed rfl
  rw [← ref.dir] at step
  exact step

/-- A step that changes the contents of one file. -/
lemma Refines.stores {size : Nat} {byte : Nat → UInt8} (ref : Refines s t) (did : Did s s.dir s.refs s')
    (frame : Frame s s') (others : ∀ j, s.Live s.Named j → j ≠ i → s'.file j = s.file j)
    (self : (s'.file i).body = (size, byte)) :
    Refines s' { t with size := Function.update t.size i size, byte := Function.update t.byte i byte } where
  inv := did.inv
  closed w := by rw [did.opens, ref.closed]
  unnamed := by
    rw [did.dir]
    exact ref.unnamed
  dir := by rw [did.dir, ref.dir]
  refs := by rw [did.refs, ref.refs]
  ino := ref.inos did fun _ => Nat.le_refl _
  body j ne live := by
    have live : s.Live s.Named j := by
      rw [SfsFs.Live, did.named_iff] at live
      exact frame.live_iff.1 live
    show _ = (Function.update t.size i size j, Function.update t.byte i byte j)
    by_cases here : j = i
    · rw [here, Function.update_self, Function.update_self, self]
    · rw [Function.update_of_ne here, Function.update_of_ne here, others j live here, ref.body j ne live]

/-- A new file. -/
lemma Refines.creates (ref : Refines s t) (did : Did s D (Function.update s.refs sv (s.refs sv + 1)) s')
    (new : KeptNew s i s') (ino : (s'.vnode sv).ino = i) (unnamed : ∀ name, D name ≠ some 1) :
    Refines s' ({ t.create i with dir := D }.hold sv i) where
  inv := did.inv
  closed w := by rw [did.opens, ref.closed]
  unnamed := by
    rw [did.dir]
    exact unnamed
  dir := did.dir.symm
  refs := by
    rw [did.refs, ← ref.refs]
    rfl
  ino w mem := by
    show Function.update t.ino sv i w = _
    by_cases here : w = sv
    · rw [here, Function.update_self, ino]
    · rw [Function.update_of_ne here]
      rw [did.inv.core.table.mem_iff, did.refs, Function.update_of_ne here, ← ref.inv.core.table.mem_iff] at mem
      rw [did.inos.ino w (ref.inv.core.table.below mem), ref.ino w mem]
  body j ne live := by
    show _ = (Function.update t.size i 0 j, Function.update t.byte i (fun _ => 0) j)
    by_cases here : j = i
    · rw [here, new.body, Function.update_self, Function.update_self]
    · obtain ⟨live', same⟩ := new.others j ne live here
      rw [same, ref.body j ne live', Function.update_of_ne here, Function.update_of_ne here]

/-- A new name never leads to the root. -/
lemma Refines.insert (ref : Refines s t) (ne : i ≠ 1) (name name' : List UInt8) :
    Function.update s.dir name (some i) name' ≠ some 1 := by
  by_cases here : name' = name
  · rw [here, Function.update_self]
    exact fun one => ne (Option.some.inj one)
  · rw [Function.update_of_ne here]
    exact ref.unnamed name'

/-- Nor does one appear by removing a name. -/
lemma unnamed_erase (unnamed : ∀ name, D name ≠ some 1) (name name' : List UInt8) :
    Function.update D name none name' ≠ some 1 := by
  by_cases here : name' = name
  · rw [here, Function.update_self]
    exact nofun
  · rw [Function.update_of_ne here]
    exact unnamed name'

/-- A call on a directory; on a file it is refused. -/
lemma Refines.wp_onDir (ref : Refines s t) {op : SfsOp} (on : op.dirVnode? = some v) (mem : v ∈ s.vnodes) {α : Type}
    {m : SfsM α} {g : α → Answer}
    (dir : (s.vnode v).ino = 1 → Prog.wp m (fun a s' => Matched t op (.ok (g a)) s')
      (fun e s' => Matched t op (.error e) s') s) :
    Prog.wp (do let a ← onDir v m; pure (g a) : SfsM Answer) (fun r s' => Matched t op (.ok r) s')
      (fun e s' => Matched t op (.error e) s') s := by
  refine Prog.wp_andThen_iff.2 (ref.inv.wp_onDir mem dir fun file => ?_)
  refine ⟨t, .error (.notDir on ?_), ref⟩
  rw [ref.ino v mem]
  exact file

/-- A call that fails matches. -/
lemma Refines.refused (ref : Refines s t) {op : SfsOp} {e : Nat} (fails : op.Fails s.dir e)
    (does : Does s s.dir s.refs s') : Matched t op (.error e) s' :=
  ⟨t, .error (.dir (by rw [ref.dir]; exact fails)), ref.nothing does⟩

/-- The step lemma for lookups. -/
lemma Refines.wp_lookup (ref : Refines s t) (mem : v ∈ s.vnodes) :
    Prog.wp (SfsOp.lookup v name).serve (fun r s' => Matched t (.lookup v name) (.ok r) s')
      (fun e s' => Matched t (.lookup v name) (.error e) s') s := by
  refine ref.wp_onDir rfl mem fun ino => ?_
  refine ((ref.inv.wp_sfsLookup mem ino).and_wlp (ref.inv.wlp_sfsLookup_kept mem ino)).mono ?_ ?_
  · rintro sv s' ⟨found, kept⟩
    exact ⟨_, .lookup (by rw [ref.dir, found.dir]) (ref.hands found.did found.mem), ref.found ⟨found.did, kept⟩⟩
  · rintro e s' ⟨⟨rfl, none, absent⟩, -⟩
    exact ref.refused ⟨none, absent⟩ (.refl ref.inv)

/-- The step lemma for `creat`. -/
lemma Refines.wp_creat (ref : Refines s t) (mem : v ∈ s.vnodes) (excl : Bool) :
    Prog.wp (SfsOp.creat v name excl).serve (fun r s' => Matched t (.creat v name excl) (.ok r) s')
      (fun e s' => Matched t (.creat v name excl) (.error e) s') s := by
  refine ref.wp_onDir rfl mem fun ino => ?_
  refine ((ref.inv.wp_sfsCreat mem ino excl).and_wlp (ref.inv.wlp_sfsCreat_kept mem ino excl)).mono ?_ ?_
  · rintro sv s' ⟨⟨rfl, found⟩ | created, old | ⟨absent, new⟩⟩
    · exact ⟨_, .found (by rw [ref.dir, found.dir]) (ref.hands found.did found.mem), ref.found ⟨found.did, old.2⟩⟩
    · rw [found.dir] at absent
      cases absent
    · exact absurd created.absent old.1
    · have ne : (s'.vnode sv).ino ≠ 1 := fun one => created.new (.inl one)
      have dead : ¬ t.Live (s'.vnode sv).ino := by
        rw [ref.live_iff]
        exact created.new
      have unused : t.refs sv = 0 := by
        rw [ref.refs]
        by_contra held
        have mem' : sv ∈ s.vnodes := ref.inv.core.table.mem_iff.2 (Nat.pos_of_ne_zero held)
        have new := created.new
        rw [created.did.inos.ino sv (ref.inv.core.table.below mem')] at new
        exact new (SfsFs.live_of_mem mem')
      have step := ref.creates created.did new rfl (ref.insert ne name.val)
      rw [← ref.dir] at step
      exact ⟨_, .creat (by rw [ref.dir, absent]) dead unused, step⟩
  · rintro e s' ⟨⟨did, why⟩, kept⟩
    exact ref.refused why ⟨did, kept⟩

/-- The step lemma for `link`. -/
lemma Refines.wp_link (ref : Refines s t) (mem : v ∈ s.vnodes) (mem' : sv ∈ s.vnodes)
    (regular : (s.vnode sv).i.type = typeFile) :
    Prog.wp (SfsOp.link v name sv).serve (fun r s' => Matched t (.link v name sv) (.ok r) s')
      (fun e s' => Matched t (.link v name sv) (.error e) s') s := by
  refine ref.wp_onDir (g := fun _ => .done) rfl mem fun ino => ?_
  refine ((ref.inv.wp_sfsLink mem ino mem').and_wlp (ref.inv.wlp_sfsLink_kept mem ino mem')).mono ?_ ?_
  · rintro _ s' ⟨⟨absent, did⟩, kept⟩
    have ne : (s.vnode sv).ino ≠ 1 := by
      intro one
      have type := (ref.inv.dir_type mem').2 one
      rw [regular] at type
      cases type
    have step := ref.names ⟨did, kept⟩ (ref.insert ne name.val)
    rw [← ref.dir, ← ref.ino sv mem'] at step
    exact ⟨_, .link (by rw [ref.dir, absent]), step⟩
  · rintro e s' ⟨⟨did, why⟩, kept⟩
    exact ref.refused why ⟨did, kept⟩

/-- The step lemma for `remove`. -/
lemma Refines.wp_remove (ref : Refines s t) (mem : v ∈ s.vnodes) :
    Prog.wp (SfsOp.remove v name).serve (fun r s' => Matched t (.remove v name) (.ok r) s')
      (fun e s' => Matched t (.remove v name) (.error e) s') s := by
  refine ref.wp_onDir (g := fun _ => .done) rfl mem fun ino => ?_
  refine ((ref.inv.wp_sfsRemove mem ino).and_wlp (ref.inv.wlp_sfsRemove_kept mem ino)).mono ?_ ?_
  · rintro _ s' ⟨⟨present, did⟩, kept⟩
    have step := ref.names ⟨did, kept⟩ (unnamed_erase ref.unnamed name.val)
    rw [← ref.dir] at step
    exact ⟨_, .remove (by rw [ref.dir]; exact present), step⟩
  · rintro e s' ⟨⟨rfl, none, absent⟩, -⟩
    exact ref.refused ⟨none, absent⟩ (.refl ref.inv)

/-- The step lemma for `rename`. -/
lemma Refines.wp_rename (ref : Refines s t) {d2 : Nat} {n1 n2 : CStr} (mem : v ∈ s.vnodes)
    (within : (s.vnode v).ino = 1 → d2 = v) :
    Prog.wp (SfsOp.rename v n1 d2 n2).serve (fun r s' => Matched t (.rename v n1 d2 n2) (.ok r) s')
      (fun e s' => Matched t (.rename v n1 d2 n2) (.error e) s') s := by
  refine ref.wp_onDir (g := fun _ => .done) rfl mem fun ino => ?_
  obtain rfl := within ino
  refine ((ref.inv.wp_sfsRename mem ino (ref.unnamed n1.val)).and_wlp (ref.inv.wlp_sfsRename_kept mem ino)).mono ?_ ?_
  · rintro _ s' ⟨⟨i, named, absent, did⟩, kept⟩
    have ne : i ≠ 1 := by
      rintro rfl
      exact ref.unnamed n1.val named
    have step := ref.names ⟨did, kept⟩ (unnamed_erase (ref.insert ne n2.val) n1.val)
    rw [← ref.dir] at step
    exact ⟨_, .rename (by rw [ref.dir, named]) (by rw [ref.dir, absent]), step⟩
  · rintro e s' ⟨⟨did, why⟩, kept⟩
    exact ref.refused why ⟨did, kept⟩

/-- The directory is neither read nor written. -/
lemma Core.wp_vopIo_dir {N : Nat → Prop} (h : Core s N) (mem : v ∈ s.vnodes) (dir : (s.vnode v).ino = 1)
    {Q : Unit → SfsFs × Uio → Prop} {E : Nat → SfsFs × Uio → Prop} (refused : E eisdir (s, u)) :
    Prog.wp (vopIo v u.rw) Q E (s, u) := by
  have ops : (s.vnode v).ops = .dir := by rw [h.table.ops mem, if_pos dir]
  rw [vopIo.eq_def, Prog.wp_andThen_iff, Prog.wp_onFst_iff]
  refine Prog.wp_of_run rfl ?_
  rw [Prog.wp_andThen_iff]
  refine Prog.wp_of_run rfl ?_
  rw [ops]
  exact refused

/-- The step lemma for reads. -/
lemma Refines.wp_read (ref : Refines s t) (mem : v ∈ s.vnodes) (ok : u.Ok) (rw : u.rw = .read) :
    Prog.wp (SfsOp.read v u).serve (fun r s' => Matched t (.read v u) (.ok r) s')
      (fun e s' => Matched t (.read v u) (.error e) s') s := by
  have live : s.Live s.Named (s.vnode v).ino := SfsFs.live_of_mem mem
  have same := ref.ino v mem
  refine Prog.wp_andThen_iff.2 (wp_withUio ?_)
  rw [← rw]
  by_cases one : (s.vnode v).ino = 1
  · exact ref.inv.core.wp_vopIo_dir mem one ⟨t, .error (.isDir rfl (same.trans one)), ref⟩
  · refine ref.inv.core.wp_vopIo mem one ((ref.inv.core.wp_sfsIo_read mem ok rw rfl).mono ?_ ?_)
    · rintro _ st ⟨rfl, -⟩
      refine ⟨t, ?_, ref⟩
      rw [File.bytes, ref.size_eq one live, ref.byte_eq one live, ← same]
      exact .read (by rw [same]; exact one)
    · rintro e st ⟨m, short, rfl, rfl, large⟩
      refine ⟨t, .error (.large ?_), ref⟩
      rw [ref.size_eq one live, ← same] at short
      obtain short | none := short
      · exact .inl (large.trans_lt (Nat.add_lt_add_left short u.offset))
      · exact .inr none

/-- What a write of `m` bytes leaves in the file. -/
lemma Wrote.body {N : Nat → Prop} {m : Nat} {st : SfsFs × Uio} (wrote : Wrote N s i u m st) (live : s.Live N i)
    (ok : u.Ok) (write : u.rw = .write) (fits : u.offset + u.resid < 2 ^ 32) :
    (st.1.file i).body = (max (s.file i).size (u.offset + (u.data.take m).length), fun p =>
      if u.offset ≤ p ∧ p < u.offset + (u.data.take m).length then (u.data.take m).getD (p - u.offset) 0
      else (s.file i).byte p) := by
  have le := wrote.le
  have length : (u.data.take m).length = m := by
    rw [List.length_take]
    exact Nat.min_eq_left (le.trans (ok.data write))
  have pos : u.pos = u.offset := Nat.mod_eq_of_lt (by omega)
  rw [wrote.writes.file_self live, pos, File.body, File.byte_grow]
  congr 1
  · rw [File.grow, File.size_store, length]
    split_ifs with longer
    · show (u.offset + m) % 2 ^ 32 = _
      omega
    · rw [File.size_store]
      omega
  · funext p
    rw [File.byte_store]

/-- Also when the request has not been done as a whole. -/
lemma Refines.writes {m : Nat} {st : SfsFs × Uio} (ref : Refines s t) (mem : v ∈ s.vnodes) (file : (s.vnode v).ino ≠ 1)
    (wrote : Wrote s.Named s (s.vnode v).ino u m st) (ok : u.Ok) (write : u.rw = .write)
    (fits : u.offset + u.resid < 2 ^ 32) : Refines st.1 (t.write (t.ino v) u.offset (u.data.take m)) := by
  have live : s.Live s.Named (s.vnode v).ino := SfsFs.live_of_mem mem
  have did := ref.inv.did_writes file live (by rw [File.links_grow]; rfl) wrote.writes
  have self := wrote.body live ok write fits
  rw [ref.size_eq file live, ref.byte_eq file live] at self
  rw [ref.ino v mem]
  refine ref.stores did wrote.writes.frame ?_ self
  intro j live' other
  rw [wrote.writes.files j live', Function.update_of_ne other]

/-- The step lemma for writes. -/
lemma Refines.wp_write (ref : Refines s t) (mem : v ∈ s.vnodes) (ok : u.Ok) (rw : u.rw = .write)
    (fits : u.offset + u.resid < 2 ^ 32) :
    Prog.wp (SfsOp.write v u).serve (fun r s' => Matched t (.write v u) (.ok r) s')
      (fun e s' => Matched t (.write v u) (.error e) s') s := by
  have same := ref.ino v mem
  refine Prog.wp_andThen_iff.2 (wp_withUio ?_)
  rw [← rw]
  by_cases one : (s.vnode v).ino = 1
  · exact ref.inv.core.wp_vopIo_dir mem one ⟨t, .error (.isDir rfl (same.trans one)), ref⟩
  · have file : t.ino v ≠ 1 := by
      rw [same]
      exact one
    refine ref.inv.core.wp_vopIo mem one ((ref.inv.core.wp_sfsIo_write mem ok rw).mono ?_ ?_)
    · intro _ st wrote
      refine ⟨_, ?_, ref.writes mem one wrote ok rw fits⟩
      rw [wrote.rest]
      exact .write file
    · rintro e st ⟨m, wrote, left, -, why⟩
      refine ⟨_, .stops file left ?_, ref.writes mem one wrote ok rw fits⟩
      have le := wrote.le
      obtain ⟨full, -⟩ | ⟨rfl, large⟩ := why
      · exact .inl full
      · exact .inr ⟨rfl, by omega⟩

/-- A truncation changes one file only. -/
lemma Core.only_sfsTruncate {N : Nat → Prop} {len : Int} (h : Core s N) (mem : v ∈ s.vnodes)
    (run : sfsTruncate v len s = .ok (.ok (), s')) : Only N (s.vnode v).ino s s' :=
  ((h.wp_sfsTruncate mem len (E := fun _ _ => False)).of_ok run).1

/-- What is past the new end may stay. -/
lemma Refines.cuts (ref : Refines s t) (mem : v ∈ s.vnodes) (ops : (s.vnode v).ops = .file) {len : Nat}
    (fits : len < 2 ^ 32) (run : vopTruncate v len s = .ok (.ok (), s')) :
    Refines s' (t.cut (t.ino v) len (s'.file (s.vnode v).ino).byte) := by
  have file := ref.inv.core.table.ne_root mem ops
  have live : s.Live s.Named (s.vnode v).ino := SfsFs.live_of_mem mem
  have cut := ref.inv.core.shortened mem ops run
  have run : sfsTruncate v len s = .ok (.ok (), s') := by
    rw [vopTruncate, Prog.andThen_of_run (t := s) rfl, ops] at run
    exact run
  have only := ref.inv.core.only_sfsTruncate mem run
  rw [ref.ino v mem]
  refine ref.stores (ref.inv.did_only file only) only.frame only.files ?_
  have size : (s'.file (s.vnode v).ino).size = len := by
    rw [cut.size]
    exact Nat.mod_eq_of_lt fits
  refine Prod.ext size (funext fun p => ?_)
  show (s'.file (s.vnode v).ino).byte p = if p < len then t.byte (s.vnode v).ino p else _
  split_ifs with inside
  · have stays : ¬ CutOff (blocksFor len % 2 ^ 32) (p / 512) := by
      rintro ⟨past, -⟩
      rw [blocksFor] at past
      omega
    rw [cut.byte, if_neg stays, ref.byte_eq file live]
  · rfl

/-- The step lemma for truncations. -/
lemma Refines.wp_truncate (ref : Refines s t) (mem : v ∈ s.vnodes) {len : Nat} (fits : len < 2 ^ 32) :
    Prog.wp (SfsOp.truncate v len).serve (fun r s' => Matched t (.truncate v len) (.ok r) s')
      (fun e s' => Matched t (.truncate v len) (.error e) s') s := by
  have same := ref.ino v mem
  have ops := ref.inv.core.table.ops mem
  refine Prog.wp_andThen_iff.2 ?_
  by_cases one : (s.vnode v).ino = 1
  · rw [if_pos one] at ops
    rw [vopTruncate, Prog.wp_andThen_iff]
    refine Prog.wp_of_run rfl ?_
    rw [ops]
    exact ⟨t, .error (.isDir rfl (same.trans one)), ref⟩
  · rw [if_neg one] at ops
    obtain ⟨s', run⟩ := ref.inv.core.vopTruncate_run mem ops len
    exact Prog.wp_of_run run ⟨_, .truncate (by rw [same]; exact one), ref.cuts mem ops fits run⟩

/-- The step lemma for `getroot`. -/
lemma Refines.wp_getroot (ref : Refines s t) :
    Prog.wp SfsOp.getroot.serve (fun r s' => Matched t .getroot (.ok r) s')
      (fun e s' => Matched t .getroot (.error e) s') s := by
  refine Prog.wp_andThen_iff.2 ?_
  rw [sfsGetroot, Prog.wp_andThen_iff, Prog.wp_attempt_iff]
  refine (ref.inv.wp_sfsLoadvnode_kept SfsFs.live_root (E := fun _ _ => False)).mono ?_ (fun _ _ no => no.elim)
  rintro sv s' ⟨mem, ino, does⟩
  have hands := ref.hands does.toDid mem
  have step := ref.found does
  rw [ino] at hands step
  exact ⟨_, .getroot hands, step⟩

/-- The step lemma for `VOP_INCREF`. -/
lemma Refines.wp_incref (ref : Refines s t) (mem : v ∈ s.vnodes) :
    Prog.wp (SfsOp.incref v).serve (fun r s' => Matched t (.incref v) (.ok r) s')
      (fun e s' => Matched t (.incref v) (.error e) s') s := by
  have does := ref.inv.does_incref mem
  have step := ref.found does
  rw [does.inos.ino v (ref.inv.core.table.below mem), ← ref.ino v mem] at step
  exact Prog.wp_andThen_iff.2 (Prog.wp_of_run rfl ⟨_, .incref, step⟩)

/-- The step lemma for `VOP_DECREF`. -/
lemma Refines.wp_decref (ref : Refines s t) (mem : v ∈ s.vnodes) :
    Prog.wp (SfsOp.decref v).serve (fun r s' => Matched t (.decref v) (.ok r) s')
      (fun e s' => Matched t (.decref v) (.error e) s') s := by
  have held : s.opens v < s.refs v := by
    rw [ref.closed]
    exact ref.inv.core.table.mem_iff.1 mem
  refine Prog.wp_andThen_iff.2 ?_
  refine (ref.inv.wp_vopDecref_kept held (E := fun _ _ => False)).mono ?_ (fun _ _ no => no.elim)
  intro _ s' does
  have step := ref.does does ref.unnamed (ref.inos does.toDid fun w => ?_)
  · rw [← ref.dir, ← ref.refs] at step
    exact ⟨_, .decref, step⟩
  · by_cases here : w = v
    · rw [here, Function.update_self]
      exact Nat.sub_le _ _
    · rw [Function.update_of_ne here]

/-- The step lemma for `fsync`. -/
lemma Refines.wp_fsync (ref : Refines s t) (mem : v ∈ s.vnodes) :
    Prog.wp (SfsOp.fsync v).serve (fun r s' => Matched t (.fsync v) (.ok r) s')
      (fun e s' => Matched t (.fsync v) (.error e) s') s := by
  refine Prog.wp_andThen_iff.2 ?_
  refine (ref.inv.core.wp_sfsSyncInode mem (E := fun _ _ => False)).mono ?_ (fun _ _ no => no.elim)
  intro _ s' synced
  exact ⟨_, .fsync, ref.nothing (synced.flushed.1.does ref.inv)⟩

/-- The step lemma for `sync`. -/
lemma Refines.wp_sync (ref : Refines s t) :
    Prog.wp SfsOp.sync.serve (fun r s' => Matched t .sync (.ok r) s')
      (fun e s' => Matched t .sync (.error e) s') s := by
  refine Prog.wp_andThen_iff.2 ((ref.inv.wp_sfsSync (E := fun _ _ => False)).mono ?_ (fun _ _ no => no.elim))
  rintro _ s' ⟨-, flushed, -⟩
  exact ⟨_, .sync, ref.nothing (flushed.does ref.inv)⟩

/-- A volume that is mounted again. -/
lemma Refines.remounts (ref : Refines s t) {s₁ s₂ : SfsFs} (synced : sfsSync s = .ok (.ok (), s₁))
    (unmounted : sfsUnmount s₁ = .ok (.ok (), s₂)) (run : sfsDomount s₂.dev = .ok (.ok (), s')) :
    (∀ w, t.refs w = 0) ∧ Refines s' t := by
  obtain ⟨did, flushed, clean⟩ := (ref.inv.wp_sfsSync (E := fun _ _ => False)).of_ok synced
  obtain ⟨rfl, none⟩ := clean.wp_sfsUnmount.of_ok unmounted
  rw [sfsDomount_eq did.inv.core.hasVolume] at run
  cases run
  have flat := ref.nothing (flushed.does ref.inv)
  obtain ⟨inv, dir⟩ := flat.inv.remount clean none
  have idle (w : Nat) : t.refs w = 0 := by
    rw [flat.refs]
    by_contra held
    have mem := flat.inv.core.table.mem_iff.2 (Nat.pos_of_ne_zero held)
    rw [none] at mem
    cases mem
  refine ⟨idle, inv, fun _ => rfl, ?_, ?_, ?_, ?_, ?_⟩
  · rw [dir]
    exact flat.unnamed
  · rw [dir, flat.dir]
  · funext w
    rw [idle]
    rfl
  · intro w mem
    cases mem
  · intro i ne live
    rw [flat.inv.core.file_mounted clean]
    refine flat.body i ne ?_
    obtain one | named | ⟨w, mem, -⟩ := live
    · exact .inl one
    · rw [SfsFs.Named, dir] at named
      exact .inr (.inl named)
    · cases mem

/-- Every call returns, and does what callers see. -/
lemma Refines.wp_serve (ref : Refines s t) {op : SfsOp} (valid : op.Valid s) (allowed : op.Allowed s) :
    Prog.wp op.serve (fun r s' => Matched t op (.ok r) s') (fun e s' => Matched t op (.error e) s') s := by
  cases op with
  | getroot => exact ref.wp_getroot
  | lookup v path => exact ref.wp_lookup valid
  | creat v name excl => exact ref.wp_creat valid excl
  | link dir name file => exact ref.wp_link valid.1 valid.2 allowed
  | remove dir name => exact ref.wp_remove valid
  | rename d1 n1 d2 n2 => exact ref.wp_rename valid.1 allowed
  | read v u => exact ref.wp_read valid.1 valid.2.1 valid.2.2
  | write v u => exact ref.wp_write valid.1 valid.2.1 valid.2.2 allowed
  | truncate v len =>
    obtain ⟨nonneg, fits⟩ := allowed
    obtain ⟨len, rfl⟩ := Int.eq_ofNat_of_zero_le nonneg
    exact ref.wp_truncate valid (by omega)
  | incref v => exact ref.wp_incref valid
  | decref v => exact ref.wp_decref valid
  | fsync v => exact ref.wp_fsync valid
  | sync => exact ref.wp_sync

/-- A new volume is empty. -/
lemma refines_newsect {volname : List UInt8} {d : Lhd} (few : bitblocks d.blocks ≤ 32)
    (fits : 2 + bitblocks d.blocks ≤ d.blocks) : Refines (mounted { d with sect := newsect volname d }) .empty := by
  obtain ⟨inv, -, dir⟩ := @inv_newsect volname d few fits
  refine ⟨inv, fun _ => rfl, ?_, (funext dir).symm, rfl, nofun, ?_⟩
  · intro name
    rw [dir]
    exact nofun
  · rintro i ne (one | ⟨name, named⟩ | ⟨w, mem, -⟩)
    · exact absurd one ne
    · rw [dir] at named
      cases named
    · cases mem

/-- A volume does what the abstract volume does. -/
lemma volume_simulates : Simulation volume Tree.lts Refines where
  init := by
    rintro s ⟨arg, d, d', made, run⟩
    obtain ⟨volname, rfl, few, fits⟩ := mksfs_eq_some made
    rw [sfsDomount_eq (hasVolume_newsect few fits)] at run
    cases run
    exact ⟨_, rfl, refines_newsect few fits⟩
  step := by
    intro s t e s' ref step
    cases e with
    | call op r =>
      obtain ⟨valid, allowed, run⟩ := step
      have spec := ref.wp_serve valid allowed
      cases r with
      | error e => exact spec.of_error run
      | ok r => exact spec.of_ok run
    | remount =>
      obtain ⟨s₁, s₂, synced, unmounted, run⟩ := step
      obtain ⟨idle, ref'⟩ := ref.remounts synced unmounted run
      exact ⟨t, ⟨idle, rfl⟩, ref'⟩

/-- Every run of a volume is a run of the abstract volume with the same calls and the same results, and at its end the
volume has the names, references and contents of the abstract one; no call that is allowed stops the machine. -/
theorem sfs_refines_tree {es : List VolumeEvent} (run : volume.Run es s) :
    (∃ t, Tree.lts.Run es t ∧ Refines s t) ∧
      ∀ op : SfsOp, op.Valid s → op.Allowed s → ∃ r s', op.serve s = .ok (r, s') := by
  obtain ⟨t, run', ref⟩ := volume_simulates.run run
  refine ⟨⟨t, run', ref⟩, fun op valid allowed => ?_⟩
  obtain ⟨r, s', served, -⟩ := Prog.wp_iff.1 (ref.wp_serve valid allowed)
  exact ⟨r, s', served⟩

/-- A call of the volume is a step of the tree. -/
lemma volume_call {es : List VolumeEvent} (run : volume.Run es s) (op : SfsOp) {r : Except Nat Answer}
    (valid : op.Valid s) (allowed : op.Allowed s) (served : op.serve s = .ok (r, s')) : volume.Run (es ++ [.call op r]) s' :=
  .step run ⟨valid, allowed, served⟩

/-- A run that gets the root directory of a new volume and creates a file in it. -/
lemma exists_created : ∃ s, volume.Run [.call .getroot (.ok (.vnode 0)),
    .call (.creat 0 ⟨[97], by decide⟩ true) (.ok (.vnode 1))] s ∧
      0 ∈ s.vnodes ∧ 1 ∈ s.vnodes ∧ (s.vnode 0).ino = 1 ∧ (s.vnode 1).ino ≠ 1 := by
  have gets : Prog.outcome sfsGetroot smallVolume = .ok (.ok 0) := by decide +kernel
  have creates : Prog.outcome (do
      let _ ← sfsGetroot
      onDir 0 (sfsCreat 0 ⟨[97], by decide⟩ true)) smallVolume = .ok (.ok 1) := by decide +kernel
  obtain ⟨s₁, run₁⟩ := Prog.run_of_outcome gets
  obtain ⟨s₂, run₂⟩ := Prog.run_of_outcome creates
  rw [Prog.andThen_of_run run₁] at run₂
  have start : volume.Run [] smallVolume := by
    refine .init ⟨⟨[118], by decide⟩, smallDisk, _, mksfs_smallDisk, ?_⟩
    exact sfsDomount_eq (@hasVolume_newsect [118] smallDisk (by decide) (by decide))
  generalize smallVolume = s₀ at run₁ start
  obtain ⟨t, -, ref⟩ := volume_simulates.run start
  obtain ⟨mem, ino, did⟩ := (ref.inv.wp_sfsGetroot (E := fun _ _ => False)).of_ok run₁
  have inv := did.inv
  have first := volume_call start .getroot trivial trivial (Prog.andThen_of_run run₁)
  have second := volume_call first (.creat 0 ⟨[97], by decide⟩ true) mem trivial (Prog.andThen_of_run run₂)
  refine ⟨s₂, second, ?_⟩
  have spec := inv.wp_onDir mem (m := sfsCreat 0 ⟨[97], by decide⟩ true) (fun ino => inv.wp_sfsCreat mem ino true)
    (fun no => absurd ino no)
  obtain ⟨no, -⟩ | created := spec.of_ok run₂
  · cases no
  · obtain ⟨mem₂, ino₂⟩ := created.did.keeps inv mem
    exact ⟨mem₂, created.mem, ino₂.trans ino, fun one => created.new (.inl one)⟩

/-- A file created in the root. -/
theorem sfs_refines_tree_creat : ∃ s t, Tree.lts.Run [.call .getroot (.ok (.vnode 0)),
    .call (.creat 0 ⟨[97], by decide⟩ true) (.ok (.vnode 1))] t ∧ Refines s t ∧
      ∃ r s', (SfsOp.remove 0 ⟨[97], by decide⟩).serve s = .ok (r, s') := by
  obtain ⟨s, run, mem, -⟩ := exists_created
  obtain ⟨⟨t, run', ref⟩, returns⟩ := sfs_refines_tree run
  exact ⟨s, t, run', ref, returns (.remove 0 ⟨[97], by decide⟩) mem trivial⟩

/-- The file that a call stores to is in the table. -/
lemma SfsOp.Valid.stores {op : SfsOp} (valid : op.Valid s) (stores : op.storesVnode? = some v) : v ∈ s.vnodes := by
  cases op with
  | write w u =>
    cases stores
    exact valid.1
  | truncate w len =>
    cases stores
    exact valid
  | _ => cases stores

/-- A file stays as it is while a caller holds it, whatever happens to names, to other files and to the disk, unless it
is written or cut. -/
theorem sfs_held_file {es es' : List VolumeEvent} {i : Nat} (run : volume.Run es s) (mem : v ∈ s.vnodes)
    (ino : (s.vnode v).ino = i) (file : i ≠ 1) (path : volume.Path (fun w e => e.Spares v i w) s es' s') :
    v ∈ s'.vnodes ∧ (s'.vnode v).ino = i ∧ (s'.file i).size = (s.file i).size ∧ (s'.file i).byte = (s.file i).byte := by
  obtain ⟨t, -, ref⟩ := volume_simulates.run run
  have live : s.Live s.Named i := ino ▸ SfsFs.live_of_mem mem
  have start : t.Holds v i (s.file i).size (s.file i).byte := by
    refine ⟨?_, ?_, (ref.size_eq file live).symm, (ref.byte_eq file live).symm⟩
    · rw [ref.refs]
      exact ref.inv.core.table.mem_iff.1 mem
    · rw [ref.ino v mem, ino]
  obtain ⟨t', ref', holds⟩ := volume_simulates.path ref path start (by
    intro s t e s' t' ref holds spares step step'
    cases e with
    | call op r =>
      refine step'.holds holds (fun gives => ?_) fun w stores => ?_
      · rw [ref.refs]
        exact spares.1 gives
      · rw [ref.ino w (step.1.stores stores)]
        exact spares.2 w stores
    | remount =>
      -- a volume is not unmounted while a file is held
      exact absurd (step'.1 v) holds.held.ne')
  have mem' : v ∈ s'.vnodes := by
    rw [ref'.inv.core.table.mem_iff, ← ref'.refs]
    exact holds.held
  have ino' : (s'.vnode v).ino = i := by rw [← ref'.ino v mem', holds.ino]
  have live' : s'.Live s'.Named i := ino' ▸ SfsFs.live_of_mem mem'
  exact ⟨mem', ino', (ref'.size_eq file live').trans holds.size, (ref'.byte_eq file live').trans holds.byte⟩

/-- The only name of a file that is held twice is removed, and then one of the two references is given up. -/
theorem sfs_held_file_removed : ∃ r r' s s₁ s₂ s₃, 1 ∈ s.vnodes ∧ (SfsOp.incref 1).serve s = .ok (.ok .done, s₁) ∧
    (SfsOp.remove 0 ⟨[97], by decide⟩).serve s₁ = .ok (r, s₂) ∧ (SfsOp.decref 1).serve s₂ = .ok (r', s₃) ∧
    1 ∈ s₃.vnodes ∧ (s₃.file (s.vnode 1).ino).size = (s.file (s.vnode 1).ino).size := by
  obtain ⟨s, run, mem₀, mem, -, file⟩ := exists_created
  obtain ⟨t, -, ref⟩ := volume_simulates.run run
  -- the second reference
  obtain ⟨s₁, served₁⟩ : ∃ s₁, (SfsOp.incref 1).serve s = .ok (.ok .done, s₁) := ⟨_, rfl⟩
  obtain ⟨t₁, step₁, ref₁⟩ := (ref.wp_serve (show (SfsOp.incref 1).Valid s from mem) trivial).of_ok served₁
  have refs₁ : t₁.refs = Function.update t.refs 1 (t.refs 1 + 1) := by
    cases step₁
    rfl
  have held {w : Nat} (mem : w ∈ s.vnodes) : 0 < t₁.refs w := by
    have held := ref.inv.core.table.mem_iff.1 mem
    rw [← ref.refs] at held
    rw [refs₁, Function.update_apply]
    split_ifs
    · exact Nat.succ_pos _
    · exact held
  have twice : 1 < t₁.refs 1 := by
    have held := ref.inv.core.table.mem_iff.1 mem
    rw [← ref.refs] at held
    rw [refs₁, Function.update_self]
    omega
  have mem₁ : 0 ∈ s₁.vnodes := by
    rw [ref₁.inv.core.table.mem_iff, ← ref₁.refs]
    exact held mem₀
  -- the name
  obtain ⟨r, s₂, served₂, ok₂, err₂⟩ := Prog.wp_iff.1
    (ref₁.wp_serve (show (SfsOp.remove 0 ⟨[97], by decide⟩).Valid s₁ from mem₁) trivial)
  have after : ∃ t₂, t₂.refs = t₁.refs ∧ Refines s₂ t₂ := by
    cases r with
    | ok a =>
      obtain ⟨t₂, step₂, ref₂⟩ := ok₂ a rfl
      cases step₂
      exact ⟨t₁.erase _, rfl, ref₂⟩
    | error e =>
      obtain ⟨t₂, step₂, ref₂⟩ := err₂ e rfl
      cases step₂
      exact ⟨_, rfl, ref₂⟩
  obtain ⟨t₂, refs₂, ref₂⟩ := after
  have twice₂ : 1 < s₂.refs 1 := by
    rw [← ref₂.refs, refs₂]
    exact twice
  have mem₂ : 1 ∈ s₂.vnodes := ref₂.inv.core.table.mem_iff.2 (by omega)
  -- one of the two references
  obtain ⟨r', s₃, served₃, -⟩ := Prog.wp_iff.1 (ref₂.wp_serve (show (SfsOp.decref 1).Valid s₂ from mem₂) trivial)
  have spares {w : SfsFs} {op : SfsOp} {r : Except Nat Answer} (gives : op = .decref 1 → 1 < w.refs 1)
      (stores : op.storesVnode? = none) : VolumeEvent.Spares 1 (s.vnode 1).ino w (.call op r) := by
    refine ⟨gives, fun w' no => ?_⟩
    rw [stores] at no
    cases no
  have first : volume.step s (.call (.incref 1) (.ok .done)) s₁ := ⟨mem, trivial, served₁⟩
  have second : volume.step s₁ (.call (.remove 0 ⟨[97], by decide⟩) r) s₂ := ⟨mem₁, trivial, served₂⟩
  have third : volume.step s₂ (.call (.decref 1) r') s₃ := ⟨mem₂, trivial, served₃⟩
  have path : volume.Path (fun w e => e.Spares 1 (s.vnode 1).ino w) s _ s₃ :=
    .step (.step (.step .refl (spares (fun no => by cases no) rfl) first) (spares (fun no => by cases no) rfl) second)
      (spares (fun _ => twice₂) rfl) third
  obtain ⟨mem', -, size, -⟩ := sfs_held_file run mem rfl file path
  exact ⟨r, r', s, s₁, s₂, s₃, mem, served₁, served₂, served₃, mem', size⟩

end

end PDS.Sfs
