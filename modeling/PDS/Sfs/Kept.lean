import PDS.Sfs.Contents
import PDS.Sfs.DirMap

/-!
# Files that are left alone

The operations on names and on references leave the contents of the regular files alone, and bring no file to life but
the one that is created. `Does` adds this to what `Did` says, operation by operation.
-/

namespace PDS.Sfs
open Kern Word

/-- The size and the bytes of a file. -/
def File.body (f : File) : Nat × (Nat → UInt8) := (f.size, f.byte)

/-- The regular files in use are files that were in use, with the same contents. -/
def Kept (s s' : SfsFs) : Prop :=
  ∀ j ≠ 1, s'.Live s'.Named j → s.Live s.Named j ∧ (s'.file j).body = (s.file j).body

/-- What an operation has done that leaves the contents of files alone. -/
structure Does (s : SfsFs) (dir : List UInt8 → Option Nat) (refs : Nat → Nat) (s' : SfsFs) : Prop extends
    Did s dir refs s' where
  kept : Kept s s'

section

variable {s s' s'' : SfsFs} {v sv i j : Nat} {name : CStr} {e : Nat} {D D' : List UInt8 → Option Nat} {R R' : Nat → Nat}

/-- Nothing has changed. -/
lemma Kept.refl (s : SfsFs) : Kept s s := fun _ _ live => ⟨live, rfl⟩

/-- Steps that keep the files compose. -/
lemma Kept.trans (h : Kept s s') (h' : Kept s' s'') : Kept s s'' := by
  intro j ne live
  obtain ⟨live', same'⟩ := h' j ne live
  obtain ⟨live, same⟩ := h j ne live'
  exact ⟨live, same'.trans same⟩

/-- Nothing has changed. -/
lemma Does.refl (h : Inv s) : Does s s.dir s.refs s := ⟨.refl h, .refl s⟩

/-- Steps of the volume compose. -/
lemma Does.trans (h : Does s D R s') (h' : Does s' D' R' s'') : Does s D' R' s'' :=
  ⟨h.toDid.trans h'.toDid, h.kept.trans h'.kept⟩

/-- The same inodes have names. -/
lemma Did.named_iff (did : Did s s.dir R s') : s'.Named j ↔ s.Named j := by
  rw [SfsFs.Named, did.dir, SfsFs.Named]

/-- An operation that leaves the names alone, and the files in use. -/
lemma Did.does (did : Did s s.dir R s') (live : ∀ j, s'.Live s.Named j → s.Live s.Named j)
    (files : ∀ j, s'.Live s.Named j → s'.file j = s.file j) : Does s s.dir R s' := by
  refine ⟨did, fun j ne hj => ?_⟩
  have hj : s'.Live s.Named j := by
    rw [SfsFs.Live, did.named_iff] at hj
    exact hj
  exact ⟨live j hj, by rw [files j hj]⟩

/-- What loading a vnode does. -/
lemma Loads.does (h : Inv s) (live : s.Live s.Named i) (loads : Loads s.Named s i sv s') :
    Does s s.dir (Function.update s.refs sv (s.refs sv + 1)) s' :=
  (loads.did h live).does (fun _ hj => (live.loads loads.loaded).1 hj) (fun _ _ => by rw [loads.file])

/-- What giving up a reference does. -/
lemma Drops.does (h : Inv s) (held : s.opens sv < s.refs sv) (drops : Drops s.Named s sv s') :
    Does s s.dir (Function.update s.refs sv (s.refs sv - 1)) s' :=
  (drops.did h held).does drops.live drops.files

/-- A directory written with its own contents. -/
lemma Inv.does_nothing (h : Inv s) (writes : Writes s.Named s 1 (s.file 1) s') : Does s s.dir s.refs s' := by
  refine (h.did_nothing writes).does (fun _ hj => writes.frame.live_iff.1 hj) (fun j hj => ?_)
  rw [writes.files j (writes.frame.live_iff.1 hj), Function.update_eq_self]

/-- What flushing does. -/
lemma Flushed.does (h : Inv s) (flushed : Flushed s.Named s s') : Does s s.dir s.refs s' :=
  (flushed.did h).does (fun _ hj => flushed.frame.live_iff.1 hj)
    (fun j hj => flushed.files j (flushed.frame.live_iff.1 hj))

/-- What `VOP_INCREF` does. -/
lemma Inv.does_incref (h : Inv s) (mem : v ∈ s.vnodes) :
    Does s s.dir (Function.update s.refs v (s.refs v + 1))
      (s.mapVnode v fun v => { v with refcount := v.refcount + 1 }) :=
  (h.core.loads_incref mem).does h (SfsFs.live_of_mem mem)

/-- `sfs_loadvnode` keeps the files. -/
lemma Inv.wp_sfsLoadvnode_kept (h : Inv s) (live : s.Live s.Named i) {E : Nat → SfsFs → Prop} :
    Prog.wp (sfsLoadvnode i typeInval)
      (fun sv s' => sv ∈ s'.vnodes ∧ (s'.vnode sv).ino = i ∧
        Does s s.dir (Function.update s.refs sv (s.refs sv + 1)) s')
      E s :=
  (h.core.wp_sfsLoadvnode live).mono (fun _ _ loads => ⟨loads.mem, loads.ino, loads.does h live⟩) (fun _ _ e => e)

/-- `VOP_DECREF` keeps the files. -/
lemma Inv.wp_vopDecref_kept (h : Inv s) (held : s.opens sv < s.refs sv) {E : Nat → SfsFs → Prop} :
    Prog.wp (vopDecref sv) (fun _ => Does s s.dir (Function.update s.refs sv (s.refs sv - 1))) E s := by
  have mem : sv ∈ s.vnodes := h.core.table.mem_iff.2 (by omega)
  exact (h.core.wp_vopDecref mem (h.counted (SfsFs.live_of_mem mem)) held).mono (fun _ _ drops => drops.does h held)
    (fun _ _ e => e)

/-- The reference that was taken to look up a name is dropped again. -/
lemma Does.wp_vopDecref (h : Inv s) (does : Does s D (Function.update s.refs sv (s.refs sv + 1)) s')
    {E : Nat → SfsFs → Prop} : Prog.wp (vopDecref sv) (fun _ => Does s D s.refs) E s' := by
  have held : s'.opens sv < s'.refs sv := by
    rw [does.opens, does.refs, Function.update_self]
    exact Nat.lt_succ_of_le (h.held sv)
  refine (does.inv.wp_vopDecref_kept held).mono ?_ (fun _ _ e => e)
  intro _ s₁ does'
  rw [does.dir, does.refs, update_back] at does'
  exact does.trans does'

/-- A slot of the directory has been written, and a link count put right. -/
lemma Enters.kept {x : Option (List UInt8 × Nat)} (enters : Enters s.Named s j x s') (mem : sv ∈ s.vnodes)
    {g : UInt16 → UInt16} (did : Did s D s.refs (s'.mapVnode sv (onInode (setLinks g))))
    (old : ∀ name k, D name = some k → s.Live s.Named k) : Kept s (s'.mapVnode sv (onInode (setLinks g))) := by
  have mem' : sv ∈ s'.vnodes := enters.frame.vnodes.symm ▸ mem
  intro k ne live
  have live' : s.Live s.Named k := by
    obtain one | ⟨name, named⟩ | loaded := live
    · exact .inl one
    · rw [did.dir] at named
      exact old name k named
    · have mapped : Frame s' (s'.mapVnode sv (onInode (setLinks g))) := .mapVnode rfl rfl rfl rfl
      exact .inr (.inr (enters.frame.loaded_iff.1 (mapped.loaded_iff.1 loaded)))
  refine ⟨live', ?_⟩
  rw [enters.core.table.file_relink mem', ← enters.files k live' ne]
  by_cases here : k = (s'.vnode sv).ino
  · rw [here, Function.update_self]
    rfl
  · rw [Function.update_of_ne here]

/-- What entering a name does. -/
lemma Inv.does_link (h : Inv s) (absent : s.dir name.val = none) (free : (s.file 1).slots j = none)
    (enters : Enters s.Named s j (some (name.val, i)) s') (mem : sv ∈ s.vnodes) (ino : (s.vnode sv).ino = i) :
    Does s (Function.update s.dir name.val (some i)) s.refs (s'.mapVnode sv (onInode (setLinks (· + 1)))) := by
  have did := h.did_link absent free enters mem ino
  refine ⟨did, enters.kept mem did fun name' k named => ?_⟩
  by_cases same : name' = name.val
  · rw [same, Function.update_self] at named
    rw [← Option.some.inj named, ← ino]
    exact SfsFs.live_of_mem mem
  · rw [Function.update_of_ne same] at named
    exact .inr (.inl ⟨name', named⟩)

/-- What removing a name does. -/
lemma Inv.does_unlink (h : Inv s) {name : List UInt8} (hold : (s.file 1).slots j = some (name, i))
    (enters : Enters s.Named s j none s') (mem : sv ∈ s.vnodes) (ino : (s.vnode sv).ino = i) :
    Does s (Function.update s.dir name none) s.refs (s'.mapVnode sv (onInode (setLinks (· - 1)))) := by
  have did := h.did_unlink hold enters mem ino
  refine ⟨did, enters.kept mem did fun name' k named => ?_⟩
  by_cases same : name' = name
  · rw [same, Function.update_self] at named
    cases named
  · rw [Function.update_of_ne same] at named
    exact .inr (.inl ⟨name', named⟩)

/-- `sfs_lookonce` keeps the files. -/
lemma Inv.wlp_sfsLookonce_kept (h : Inv s) (mem : v ∈ s.vnodes) (ino : (s.vnode v).ino = 1) :
    Prog.wlp (sfsLookonce v name)
      (fun r s' => (s'.file 1).slots r.2 = some (name.val, (s'.vnode r.1).ino) ∧ r.1 ∈ s'.vnodes ∧
        Does s s.dir (Function.update s.refs r.1 (s.refs r.1 + 1)) s')
      (fun _ s' => s' = s) s := by
  have kept : Prog.wlp (sfsLookonce v name) (fun _ s' => Kept s s') (fun _ s' => s' = s) s := by
    rw [sfsLookonce, Prog.wlp_andThen_iff]
    refine (h.core.wp_sfsDirFindname h.root mem ino (E := fun _ _ => False)).wlp.mono ?_ (fun _ _ no => no.elim)
    rintro r s₁ ⟨same, seen⟩
    rw [same]
    cases found : r.found with
    | none => exact rfl
    | some x =>
      have named := seen.dir_some h.root found
      dsimp only
      rw [Prog.wlp_andThen_iff]
      refine (h.wp_sfsLoadvnode_kept (SfsFs.live_of_dir named) (E := fun _ _ => False)).wlp.mono ?_
        (fun _ _ no => no.elim)
      rintro sv s' ⟨-, -, does⟩
      rw [Prog.wlp_andThen_iff]
      refine Prog.wlp_of_run rfl ?_
      rw [Prog.wlp_andThen_iff]
      refine Prog.wlp_of_run rfl ?_
      rw [Prog.wlp_andThen_iff]
      exact Prog.wlp.require fun _ => does.kept
  refine ((h.wp_sfsLookonce mem ino).and_wlp kept).wlp.mono ?_ (fun _ _ err => err.2)
  rintro r s' ⟨⟨found, hold⟩, kept⟩
  exact ⟨hold, found.mem, found.did, kept⟩

/-- `sfs_lookup` keeps the files. -/
lemma Inv.wlp_sfsLookup_kept (h : Inv s) (mem : v ∈ s.vnodes) (ino : (s.vnode v).ino = 1) :
    Prog.wlp (sfsLookup v name) (fun _ s' => Kept s s') (fun _ s' => s' = s) s := by
  rw [sfsLookup, Prog.wlp_andThen_iff]
  refine Prog.wlp_of_run rfl ?_
  rw [if_neg (not_not.2 ((h.dir_type mem).2 ino)), Prog.wlp_andThen_iff]
  exact (h.wlp_sfsLookonce_kept mem ino).mono (fun _ _ found => found.2.2.kept) (fun _ _ e => e)

/-- `sfs_link` keeps the files. -/
lemma Inv.wlp_sfsLink_kept (h : Inv s) (mem : v ∈ s.vnodes) (ino : (s.vnode v).ino = 1) (mem' : sv ∈ s.vnodes) :
    Prog.wlp (sfsLink v name sv) (fun _ s' => Kept s s') (fun _ s' => Kept s s') s := by
  rw [sfsLink, Prog.wlp_andThen_iff]
  refine Prog.wlp_of_run rfl ?_
  rw [Prog.wlp_andThen_iff]
  refine (h.core.wp_sfsDirLink h.root mem ino (SfsFs.live_of_mem mem')).wlp.mono ?_ ?_
  · rintro slot s₁ ⟨absent, free, enters⟩
    exact Prog.wlp_of_run rfl (h.does_link absent free enters mem' rfl).kept
  · rintro e s₁ ⟨writes, -⟩
    exact (h.does_nothing writes).kept

/-- The rule for clean-up code. -/
lemma wlp_andAlways {α : Type} {m : SfsM α} {after : SfsM Unit} {Q : α → SfsFs → Prop} {E : Nat → SfsFs → Prop}
    (h : Prog.wlp m (fun a s => Prog.wlp after (fun _ s => Q a s) E s)
      (fun e s => Prog.wlp after (fun _ s => E e s) E s) s) : Prog.wlp (andAlways m after) Q E s := by
  rw [andAlways, Prog.wlp_andThen_iff, Prog.wlp_attempt_iff]
  refine h.mono ?_ ?_
  · intro a s' h
    rw [Prog.wlp_andThen_iff]
    exact h
  · intro e s' h
    rw [Prog.wlp_andThen_iff]
    exact h

/-- Unlinking keeps the other files. -/
lemma Inv.wlp_sfsUnlink_kept (h : Inv s) (mem : v ∈ s.vnodes) (ino : (s.vnode v).ino = 1) (mem' : sv ∈ s.vnodes)
    {name : List UInt8} (hold : (s.file 1).slots j = some (name, (s.vnode sv).ino)) {E : Nat → SfsFs → Prop} :
    Prog.wlp (sfsUnlink v j sv) (fun _ => Does s (Function.update s.dir name none) s.refs) E s := by
  rw [sfsUnlink, Prog.wlp_andThen_iff]
  refine (h.core.wp_sfsDirUnlink h.root mem ino (File.lt_of_slots hold)).wlp.mono ?_ (fun _ _ e => e)
  intro _ s₁ enters
  rw [Prog.wlp_andThen_iff]
  refine Prog.wlp_of_run rfl ?_
  rw [Prog.wlp_andThen_iff]
  exact Prog.wlp.require fun _ => Prog.wlp_of_run rfl (h.does_unlink hold enters mem' rfl)

/-- `sfs_remove` keeps the files that have names left. -/
lemma Inv.wlp_sfsRemove_kept (h : Inv s) (mem : v ∈ s.vnodes) (ino : (s.vnode v).ino = 1) :
    Prog.wlp (sfsRemove v name) (fun _ s' => Kept s s') (fun _ s' => s' = s) s := by
  rw [sfsRemove, Prog.wlp_andThen_iff]
  refine (h.wlp_sfsLookonce_kept mem ino).mono ?_ (fun _ _ e => e)
  rintro ⟨sv, slot⟩ s₁ ⟨hold, found, does⟩
  obtain ⟨mem₁, ino₁⟩ := does.keeps h mem
  refine wlp_andAlways ((does.inv.wlp_sfsUnlink_kept mem₁ (ino₁.trans ino) found hold).mono ?_ (fun _ _ e => e))
  intro _ s₂ does₂
  rw [does.dir, does.refs] at does₂
  exact ((does.trans does₂).wp_vopDecref h).wlp.mono (fun _ _ does₃ => does₃.kept) (fun _ _ e => e)

/-- The undo path is not taken. -/
lemma Inv.wlp_sfsRenameAt_kept (h : Inv s) (mem : v ∈ s.vnodes) (ino : (s.vnode v).ino = 1) (mem' : sv ∈ s.vnodes)
    {n1 : List UInt8} {n2 : CStr} (hold : (s.file 1).slots j = some (n1, (s.vnode sv).ino)) :
    Prog.wlp (sfsRenameAt v sv j n2)
      (fun _ s' => ∃ D, Does s D s.refs s') (fun _ s' => ∃ D, Does s D s.refs s') s := by
  rw [sfsRenameAt, Prog.wlp_andThen_iff]
  refine Prog.wlp_of_run rfl ?_
  rw [Prog.wlp_andThen_iff]
  refine (h.core.wp_sfsDirLink h.root mem ino (SfsFs.live_of_mem mem')).wlp.mono ?_ ?_
  · rintro slot s₁ ⟨absent, free, enters⟩
    have does := h.does_link absent free enters mem' rfl
    have mem₁ : sv ∈ s₁.vnodes := enters.frame.vnodes.symm ▸ mem'
    rw [Prog.wlp_andThen_iff]
    refine Prog.wlp_of_run (t := s₁.mapVnode sv (onInode (setLinks (· + 1)))) rfl ?_
    have slots := (enters.core.table.slots_relink (g := (· + 1)) mem₁).2
    generalize s₁.mapVnode sv (onInode (setLinks (· + 1))) = s₂ at does slots ⊢
    have hold₂ : (s₂.file 1).slots j = some (n1, (s.vnode sv).ino) := by
      have other : j ≠ slot := by
        rintro rfl
        rw [free] at hold
        cases hold
      rw [slots, enters.slots, Function.update_of_ne other, hold]
    have stays {w : Nat} (held : w ∈ s.vnodes) : w ∈ s₂.vnodes := by
      rw [does.inv.core.table.mem_iff, does.refs]
      exact h.core.table.mem_iff.1 held
    have ino₂ : (s₂.vnode sv).ino = (s.vnode sv).ino := does.inos.ino sv (h.core.table.below mem')
    have vino₂ : (s₂.vnode v).ino = 1 := (does.inos.ino v (h.core.table.below mem)).trans ino
    rw [Prog.wlp_andThen_iff, Prog.wlp_attempt_iff]
    refine (does.inv.core.wp_sfsDirUnlink does.inv.root (stays mem) vino₂ (File.lt_of_slots hold₂)
      (E := fun _ _ => False)).wlp.mono ?_ (fun _ _ no => no.elim)
    intro _ s₃ enters₃
    dsimp only
    rw [Prog.wlp_andThen_iff]
    refine Prog.wlp_of_run rfl ?_
    rw [Prog.wlp_andThen_iff]
    refine Prog.wlp.require fun _ => Prog.wlp_of_run rfl ?_
    have does₃ := does.inv.does_unlink hold₂ enters₃ (stays mem') ino₂
    rw [does.refs] at does₃
    exact ⟨_, does.trans does₃⟩
  · rintro e s₁ ⟨writes, -⟩
    exact ⟨_, h.does_nothing writes⟩

/-- `sfs_rename` keeps the files. -/
lemma Inv.wlp_sfsRename_kept (h : Inv s) (mem : v ∈ s.vnodes) (ino : (s.vnode v).ino = 1) {n1 n2 : CStr} :
    Prog.wlp (sfsRename v n1 v n2) (fun _ s' => Kept s s') (fun _ s' => Kept s s') s := by
  rw [sfsRename, Prog.wlp_andThen_iff]
  refine Prog.wlp_of_run rfl ?_
  rw [Prog.wlp_andThen_iff]
  refine Prog.wlp.require fun _ => ?_
  rw [Prog.wlp_andThen_iff]
  refine Prog.wlp.require fun _ => ?_
  rw [Prog.wlp_andThen_iff]
  refine (h.wlp_sfsLookonce_kept mem ino).mono ?_ ?_
  · rintro ⟨sv, slot⟩ s₁ ⟨hold, found, does⟩
    obtain ⟨mem₁, ino₁⟩ := does.keeps h mem
    rw [Prog.wlp_andThen_iff]
    refine Prog.wlp_of_run rfl ?_
    rw [Prog.wlp_andThen_iff]
    refine Prog.wlp.require fun _ => ?_
    have drop {D : List UInt8 → Option Nat} {s₂ : SfsFs} (does₂ : Does s₁ D s₁.refs s₂) :
        Prog.wlp (vopDecref sv) (fun _ s' => Kept s s') (fun _ s' => Kept s s') s₂ := by
      rw [does.refs] at does₂
      exact ((does.trans does₂).wp_vopDecref h).wlp.mono (fun _ _ does₃ => does₃.kept) (fun _ _ e => e)
    refine wlp_andAlways ((does.inv.wlp_sfsRenameAt_kept mem₁ (ino₁.trans ino) found hold).mono ?_ ?_)
    · rintro _ s₂ ⟨D, does₂⟩
      exact drop does₂
    · rintro e s₂ ⟨D, does₂⟩
      exact drop does₂
  · rintro e s₁ rfl
    exact .refl _

/-- The file `i` is new and has no contents; the others are as they were. -/
structure KeptNew (s : SfsFs) (i : Nat) (s' : SfsFs) : Prop where
  body : (s'.file i).body = (0, fun _ => 0)
  others : ∀ j ≠ 1, s'.Live s'.Named j → j ≠ i → s.Live s.Named j ∧ (s'.file j).body = (s.file j).body

/-- What `sfs_creat` makes is an empty file. -/
lemma KeptNew.empty (h : KeptNew s i s') : (s'.file i).Empty :=
  ⟨congrArg Prod.fst h.body, congrFun (congrArg Prod.snd h.body)⟩

/-- A new file keeps the old ones. -/
lemma Makes.keptNew (h : Inv s) (makes : Makes s.Named s i sv s') : KeptNew s i s' := by
  refine ⟨by rw [makes.file]; rfl, fun j _ live other => ?_⟩
  have did := makes.did h
  have live' : s.Live s.Named j := by
    obtain one | named | loaded := live
    · exact .inl one
    · exact .inr (.inl (did.named_iff.1 named))
    · exact .inr (.inr (((makes.loaded j).1 loaded).resolve_right other))
  exact ⟨live', by rw [makes.files j live']⟩

/-- What comes after that leaves contents alone. -/
lemma KeptNew.trans (h : KeptNew s i s') (ne : i ≠ 1) (kept : Kept s' s'') (live : s''.Live s''.Named i) :
    KeptNew s i s'' := by
  refine ⟨(kept i ne live).2.trans h.body, fun j one live other => ?_⟩
  obtain ⟨live', same'⟩ := kept j one live
  obtain ⟨live, same⟩ := h.others j one live' other
  exact ⟨live, same'.trans same⟩

/-- The new file has been given up. -/
lemma KeptNew.gone (h : KeptNew s i s') (kept : Kept s' s'') (gone : ¬ s''.Live s''.Named i) : Kept s s'' := by
  intro j one live
  have other : j ≠ i := fun same => gone (same ▸ live)
  obtain ⟨live', same'⟩ := kept j one live
  obtain ⟨live, same⟩ := h.others j one live' other
  exact ⟨live, same'.trans same⟩

/-- The inodes in use, when neither the names nor the references have changed. -/
lemma Did.live_iff (h : Inv s) (did : Did s s.dir s.refs s') : s'.Live s'.Named i ↔ s.Live s.Named i := by
  have mem (w : Nat) : w ∈ s'.vnodes ↔ w ∈ s.vnodes := by
    rw [did.inv.core.table.mem_iff, h.core.table.mem_iff, did.refs]
  have loaded : s'.Loaded i ↔ s.Loaded i := by
    refine exists_congr fun w => ?_
    rw [mem]
    refine and_congr_right fun held => ?_
    rw [did.inos.ino w (h.core.table.below held)]
  rw [SfsFs.Live, SfsFs.Live, did.named_iff, loaded]

/-- Naming a new file keeps the old ones. -/
lemma Inv.wlp_sfsCreatLink_kept (h : Inv s) (mem : v ∈ s.vnodes) (ino : (s.vnode v).ino = 1) (mem' : sv ∈ s.vnodes)
    (held : s.opens sv < s.refs sv) :
    Prog.wlp (sfsCreatLink v name sv) (fun sw s' => sw = sv ∧ ∃ D, Does s D s.refs s') (fun _ s' => Kept s s') s := by
  rw [sfsCreatLink, Prog.wlp_andThen_iff]
  refine Prog.wlp_of_run rfl ?_
  rw [Prog.wlp_andThen_iff, Prog.wlp_attempt_iff]
  refine (h.core.wp_sfsDirLink h.root mem ino (SfsFs.live_of_mem mem')).wlp.mono ?_ ?_
  · rintro slot s₁ ⟨absent, free, enters⟩
    dsimp only
    rw [Prog.wlp_andThen_iff]
    exact Prog.wlp_of_run rfl ⟨rfl, _, h.does_link absent free enters mem' rfl⟩
  · rintro e s₁ ⟨writes, -⟩
    have does := h.does_nothing writes
    dsimp only
    rw [Prog.wlp_andThen_iff]
    have held' : s₁.opens sv < s₁.refs sv := by
      rw [does.opens, does.refs]
      exact held
    exact (does.inv.wp_vopDecref_kept held').wlp.mono (fun _ _ does' => does.kept.trans does'.kept) (fun _ _ e => e)

/-- The two ways that `sfs_creat` may go: the name exists, or there is a new file, which an error gives up. -/
lemma Inv.wlp_sfsCreat_parts (h : Inv s) (mem : v ∈ s.vnodes) (ino : (s.vnode v).ino = 1) (excl : Bool) :
    Prog.wlp (sfsCreat v name excl)
      (fun sv s' => s.dir name.val ≠ none ∧ Kept s s' ∨ s.dir name.val = none ∧ KeptNew s (s'.vnode sv).ino s')
      (fun _ s' => Kept s s' ∨ ∃ i s₁, ¬ s.Live s.Named i ∧ KeptNew s i s₁ ∧ Kept s₁ s') s := by
  rw [sfsCreat, Prog.wlp_andThen_iff]
  refine (h.core.wp_sfsDirFindname h.root mem ino (E := fun _ _ => False)).wlp.mono ?_ (fun _ _ no => no.elim)
  rintro r s₁ ⟨same, seen⟩
  rw [same]
  cases found : r.found with
  | some x =>
    have named := seen.dir_some h.root found
    dsimp only
    cases excl with
    | true => exact .inl (.refl s)
    | false =>
      refine (h.wp_sfsLoadvnode_kept (SfsFs.live_of_dir named) (E := fun _ _ => False)).wlp.mono ?_
        (fun _ _ no => no.elim)
      rintro sv s' ⟨-, -, does⟩
      refine .inl ⟨?_, does.kept⟩
      rw [named]
      exact Option.some_ne_none x.1
  | none =>
    have absent := seen.dir_none found
    dsimp only
    rw [Prog.wlp_andThen_iff]
    refine h.core.wp_sfsMakeobj.wlp.mono ?_ ?_
    · rintro sv s₁ ⟨i, makes⟩
      have did := makes.did h
      have new := makes.keptNew h
      obtain ⟨mem₁, ino₁⟩ := did.keeps h mem
      have held : s₁.opens sv < s₁.refs sv := by
        rw [did.opens, did.refs, Function.update_self]
        exact Nat.lt_succ_of_le (h.held sv)
      refine (did.inv.wlp_sfsCreatLink_kept mem₁ (ino₁.trans ino) makes.mem held).mono ?_ ?_
      · rintro sw s₂ ⟨same, D, does⟩
        subst same
        have ino₂ := (does.inos.ino _ (did.inv.core.table.below makes.mem)).trans makes.ino
        have mem₂ : sw ∈ s₂.vnodes := by
          rw [does.inv.core.table.mem_iff, does.refs]
          exact did.inv.core.table.mem_iff.1 makes.mem
        refine .inr ⟨absent, ?_⟩
        rw [ino₂]
        exact new.trans (fun one => makes.new (.inl one)) does.kept (ino₂ ▸ SfsFs.live_of_mem mem₂)
      · rintro e s₂ kept
        exact .inr ⟨i, s₁, makes.new, new, kept⟩
    · rintro e s' ⟨-, rfl⟩
      exact .inl (.refl _)

/-- `sfs_creat` keeps the old files. -/
lemma Inv.wlp_sfsCreat_kept (h : Inv s) (mem : v ∈ s.vnodes) (ino : (s.vnode v).ino = 1) (excl : Bool) :
    Prog.wlp (sfsCreat v name excl)
      (fun sv s' => s.dir name.val ≠ none ∧ Kept s s' ∨ s.dir name.val = none ∧ KeptNew s (s'.vnode sv).ino s')
      (fun _ s' => Kept s s') s := by
  refine ((h.wp_sfsCreat mem ino excl).and_wlp (h.wlp_sfsCreat_parts mem ino excl)).wlp.mono (fun _ _ post => post.2) ?_
  rintro e s' ⟨⟨did, -⟩, kept | ⟨i, s₁, new, made, kept⟩⟩
  · exact kept
  · exact made.gone kept fun live => new ((did.live_iff h).1 live)

/-- A name for which there was no file is the name of an empty file after `sfs_creat`. -/
lemma Inv.wlp_sfsCreat_empty (h : Inv s) (mem : v ∈ s.vnodes) (ino : (s.vnode v).ino = 1) (excl : Bool)
    (absent : s.dir name.val = none) :
    Prog.wlp (sfsCreat v name excl) (fun sv s' => (s'.file (s'.vnode sv).ino).Empty) (fun _ _ => True) s := by
  refine (h.wlp_sfsCreat_kept mem ino excl).mono ?_ fun _ _ _ => trivial
  rintro sv s' (⟨named, -⟩ | ⟨-, new⟩)
  · exact absurd absent named
  · exact new.empty

end

end PDS.Sfs
