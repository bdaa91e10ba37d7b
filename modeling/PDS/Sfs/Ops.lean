import PDS.Sfs.Dir

/-!
# Directory operations

`Inv s` is the invariant of a file system: the volume is in order, the inodes with a name are those the root
directory names, and the link count of an inode in use is the number of its names; the root directory has one more.
The operations on the directory keep it, and `Did` says what they do to the map from names to inode numbers and to
the references to vnodes. An operation that fails does nothing to either.
-/

namespace PDS.Sfs
open Kern Word

/-- An inode has a name. -/
def SfsFs.Named (s : SfsFs) (i : Nat) : Prop := ∃ name, s.dir name = some i

/-- The invariant of a file system. -/
structure Inv (s : SfsFs) : Prop where
  core : Core s s.Named
  root : RootDir s
  links : ∀ i, s.Live s.Named i → (s.file i).links.toNat = Slots.count s.dir i + if i = 1 then 1 else 0
  /-- who opens a vnode holds a reference to it -/
  held : ∀ sv, s.opens sv ≤ s.refs sv

/-- What an operation has done: the map from names to inode numbers, and the references to vnodes. -/
structure Did (s : SfsFs) (dir : List UInt8 → Option Nat) (refs : Nat → Nat) (s' : SfsFs) : Prop where
  inv : Inv s'
  dir : s'.dir = dir
  refs : s'.refs = refs
  opens : s'.opens = s.opens
  inos : SameInos s s'

section

variable {s s' s'' : SfsFs} {N N' : Nat → Prop} {v sv i j : Nat} {name : CStr} {e : Nat}
  {D D' : List UInt8 → Option Nat} {R R' : Nat → Nat}

/-- The invariant depends on which inodes are live. -/
lemma Core.congr (h : Core s N) (live : ∀ j, s.Live N' j ↔ s.Live N j) : Core s N' where
  geom := h.geom
  table := h.table
  disk := h.disk
  type hi := h.type ((live _).1 hi)
  own := by
    refine h.own.congr ?_ (fun _ => Iff.rfl)
    intro o x
    cases o with
    | volume c => exact Iff.rfl
    | inode j => rw [SfsFs.Owns, SfsFs.Owns, live]
    | block j l => rw [SfsFs.Owns, SfsFs.Owns, live]

/-- An inode has finitely many names. -/
lemma RootDir.finite (h : RootDir s) (i : Nat) : { name | s.dir name = some i }.Finite :=
  (s.file 1).slots_below.finite h.distinct

/-- An inode is named if its names are counted at all. -/
lemma RootDir.named_iff (h : RootDir s) : s.Named i ↔ 0 < Slots.count s.dir i :=
  (Slots.count_pos_iff (h.finite i)).symm

/-- A link count does not overflow. -/
lemma RootDir.count_le (h : RootDir s) : Slots.count s.dir i ≤ 1144 :=
  ((s.file 1).slots_below.count_le h.distinct).trans h.sized.slots_lt

/-- An inode in use has a link count of zero if it has no name and is not the root. -/
lemma Inv.counted (h : Inv s) (live : s.Live s.Named i) :
    (s.file i).links = 0 ↔ ¬ (i = 1 ∨ s.Named i) := by
  have links := h.links i live
  have named := h.root.named_iff (i := i)
  rw [← UInt16.toNat_inj, links, named]
  show Slots.count s.dir i + (if i = 1 then 1 else 0) = 0 ↔ _
  split_ifs with one
  · simp [one]
  · simp [one]

/-- Steps of the volume compose. -/
lemma Did.trans (h : Did s D R s') (h' : Did s' D' R' s'') : Did s D' R' s'' where
  inv := h'.inv
  dir := h'.dir
  refs := h'.refs
  opens := h'.opens.trans h.opens
  inos := h.inos.trans h'.inos

/-- Nothing has changed. -/
lemma Did.refl (h : Inv s) : Did s s.dir s.refs s := ⟨h, rfl, rfl, rfl, .refl s⟩

/-- The directory and the link counts have not changed. -/
lemma Inv.of_core (h : Inv s) (core : Core s' s.Named) (file : s'.file 1 = s.file 1)
    (keeps : ∀ l, s.ptr 1 l ≠ 0 → s'.ptr 1 l ≠ 0)
    (links : ∀ j, s'.Live s.Named j → (s'.file j).links.toNat = Slots.count s.dir j + if j = 1 then 1 else 0)
    (held : ∀ sv, s'.opens sv ≤ s'.refs sv) : Inv s' ∧ s'.dir = s.dir := by
  have dir : s'.dir = s.dir := by rw [SfsFs.dir, file, SfsFs.dir]
  have named : s'.Named = s.Named := by
    funext i
    rw [SfsFs.Named, SfsFs.Named, dir]
  refine ⟨⟨named.symm ▸ core, ⟨?_, ?_, ?_⟩, ?_, held⟩, dir⟩
  · rw [file]
    exact h.root.sized
  · intro p lt
    rw [file] at lt
    exact keeps _ (h.root.filled p lt)
  · rw [file]
    exact h.root.distinct
  · rw [named, dir]
    exact links

/-- One reference more covers the opens. -/
lemma Inv.held_incref (h : Inv s) (sv sw : Nat) : s.opens sw ≤ Function.update s.refs sv (s.refs sv + 1) sw := by
  have := h.held sw
  by_cases e : sw = sv
  · rw [e, Function.update_self]
    rw [e] at this
    omega
  · rw [Function.update_of_ne e]
    exact this

/-- What loading a vnode does. -/
lemma Loads.did (h : Inv s) (live : s.Live s.Named i) (loads : Loads s.Named s i sv s') :
    Did s s.dir (Function.update s.refs sv (s.refs sv + 1)) s' := by
  obtain ⟨inv, dir⟩ := h.of_core loads.core (by rw [loads.file]) (by rw [loads.ptr]; exact fun _ used => used) (by
    intro j hj
    rw [loads.file]
    exact h.links j ((live.loads loads.loaded).1 hj)) (by
    rw [loads.opens, loads.refs]
    exact h.held_incref sv)
  exact ⟨inv, dir, loads.refs, loads.opens, loads.inos⟩

/-- What making a file does. -/
lemma Makes.did (h : Inv s) (makes : Makes s.Named s i sv s') :
    Did s s.dir (Function.update s.refs sv (s.refs sv + 1)) s' := by
  have notRoot : i ≠ 1 := fun one => makes.new (.inl one)
  obtain ⟨inv, dir⟩ := h.of_core makes.core (makes.files 1 SfsFs.live_root) (by
      intro l used
      rw [makes.ptr 1 l SfsFs.live_root]
      exact used) (by
    intro j hj
    by_cases same : j = i
    · have none : Slots.count s.dir i = 0 := by
        by_contra pos
        exact makes.new (.inr (.inl (h.root.named_iff.2 (Nat.pos_of_ne_zero pos))))
      rw [same, makes.file, none, if_neg notRoot]
      rfl
    · have live : s.Live s.Named j := by
        obtain one | named | loaded := hj
        · exact .inl one
        · exact .inr (.inl named)
        · exact .inr (.inr (((makes.loaded j).1 loaded).resolve_right same))
      rw [makes.files j live]
      exact h.links j live) (by
    rw [makes.opens, makes.refs]
    exact h.held_incref sv)
  exact ⟨inv, dir, makes.refs, makes.opens, makes.inos⟩

/-- What giving up a reference does. -/
lemma Drops.did (h : Inv s) (held : s.opens sv < s.refs sv) (drops : Drops s.Named s sv s') :
    Did s s.dir (Function.update s.refs sv (s.refs sv - 1)) s' := by
  obtain ⟨inv, dir⟩ := h.of_core drops.core (drops.files 1 SfsFs.live_root)
    (fun l used => drops.keeps 1 l SfsFs.live_root used) (by
    intro j hj
    rw [drops.files j hj]
    exact h.links j (drops.live j hj)) (by
    intro sw
    rw [drops.opens, drops.refs]
    by_cases e : sw = sv
    · rw [e, Function.update_self]
      omega
    · rw [Function.update_of_ne e]
      exact h.held sw)
  exact ⟨inv, dir, drops.refs, drops.opens, drops.inos⟩

/-- Blocks may have been allocated for the directory, but nothing has been written. -/
lemma Inv.did_nothing (h : Inv s) (writes : Writes s.Named s 1 (s.file 1) s') : Did s s.dir s.refs s' := by
  have files (j : Nat) (live : s.Live s.Named j) : s'.file j = s.file j := by
    rw [writes.files j live, Function.update_eq_self]
  obtain ⟨inv, dir⟩ := h.of_core writes.core (files 1 SfsFs.live_root)
    (fun l used => writes.keeps 1 l SfsFs.live_root used) (by
    intro j hj
    have live := writes.frame.live_iff.1 hj
    rw [files j live]
    exact h.links j live) (by
    rw [writes.frame.opens, writes.frame.refs]
    exact h.held)
  exact ⟨inv, dir, writes.frame.refs, writes.frame.opens, writes.frame.inos⟩

/-- The rule of `sfs_loadvnode`. -/
lemma Inv.wp_sfsLoadvnode (h : Inv s) (live : s.Live s.Named i) {E : Nat → SfsFs → Prop} :
    Prog.wp (sfsLoadvnode i typeInval)
      (fun sv s' => sv ∈ s'.vnodes ∧ (s'.vnode sv).ino = i ∧ Did s s.dir (Function.update s.refs sv (s.refs sv + 1)) s')
      E s :=
  (h.core.wp_sfsLoadvnode live).mono (fun _ _ loads => ⟨loads.mem, loads.ino, loads.did h live⟩) (fun _ _ e => e)

/-- The other vnodes stay in the table when a reference is taken. -/
lemma Did.keeps (h : Inv s) (did : Did s D (Function.update s.refs sv (s.refs sv + 1)) s') (mem : v ∈ s.vnodes) :
    v ∈ s'.vnodes ∧ (s'.vnode v).ino = (s.vnode v).ino := by
  refine ⟨?_, did.inos.ino v (h.core.table.below mem)⟩
  rw [did.inv.core.table.mem_iff, did.refs]
  by_cases e : v = sv
  · rw [e, Function.update_self]
    exact Nat.succ_pos _
  · rw [Function.update_of_ne e]
    exact h.core.table.mem_iff.1 mem

/-- The rule of `VOP_DECREF`. -/
lemma Inv.wp_vopDecref (h : Inv s) (held : s.opens sv < s.refs sv) {E : Nat → SfsFs → Prop} :
    Prog.wp (vopDecref sv) (fun _ => Did s s.dir (Function.update s.refs sv (s.refs sv - 1))) E s := by
  have mem : sv ∈ s.vnodes := h.core.table.mem_iff.2 (by omega)
  exact (h.core.wp_vopDecref mem (h.counted (SfsFs.live_of_mem mem)) held).mono (fun _ _ drops => drops.did h held)
    (fun _ _ e => e)

/-- The slots depend on size and data. -/
lemma File.slots_congr {f f' : File} (size : f'.size = f.size) (data : f'.data = f.data) : f'.slots = f.slots := by
  obtain ⟨type, links, size', data'⟩ := f'
  dsimp only at size data
  subst size data
  rfl

/-- A function that only changes the link count of an inode. -/
def setLinks (g : UInt16 → UInt16) (i : SfsInode) : SfsInode := { i with linkcount := g i.linkcount }

/-- The files after a link count is set. -/
lemma Table.file_relink (h : Table s) (mem : sv ∈ s.vnodes) {g : UInt16 → UInt16} :
    (s.mapVnode sv (onInode (setLinks g))).file = Function.update s.file (s.vnode sv).ino
      { s.file (s.vnode sv).ino with links := g (s.file (s.vnode sv).ino).links } := by
  rw [h.file_mapVnode mem rfl rfl rfl]
  congr 1
  dsimp only [SfsFs.file]
  rw [h.inode_eq mem]
  rfl

/-- A link count is no part of the contents of the directory. -/
lemma Table.slots_relink (h : Table s) (mem : sv ∈ s.vnodes) {g : UInt16 → UInt16} :
    ((s.mapVnode sv (onInode (setLinks g))).file 1).size = (s.file 1).size ∧
      ((s.mapVnode sv (onInode (setLinks g))).file 1).slots = (s.file 1).slots := by
  rw [h.file_relink mem, Function.update_apply]
  split_ifs with one
  · rw [one]
    exact ⟨rfl, File.slots_congr rfl rfl⟩
  · exact ⟨rfl, rfl⟩

/-- A slot of the directory has been written, and the link count of the inode it is about is put right. -/
lemma Inv.relinked (h : Inv s) {x : Option (List UInt8 × Nat)} (enters : Enters s.Named s j x s')
    (distinct : (s'.file 1).slots.Distinct) (mem : sv ∈ s.vnodes)
    (others : ∀ k ≠ (s.vnode sv).ino, Slots.count s'.dir k = Slots.count s.dir k) {g : UInt16 → UInt16}
    (links : (g (s.file (s.vnode sv).ino).links).toNat =
      Slots.count s'.dir (s.vnode sv).ino + if (s.vnode sv).ino = 1 then 1 else 0) :
    Did s s'.dir s.refs (s'.mapVnode sv (onInode (setLinks g))) := by
  generalize hi : (s.vnode sv).ino = i at others links
  have mem' : sv ∈ s'.vnodes := enters.frame.vnodes.symm ▸ mem
  have ino : (s'.vnode sv).ino = i := (enters.frame.ino sv).trans hi
  have live (k : Nat) : s'.Live s.Named k ↔ s.Live s.Named k := enters.frame.live_iff
  have file : (s'.mapVnode sv (onInode (setLinks g))).file =
      Function.update s'.file i { s'.file i with links := g (s'.file i).links } := by
    rw [← ino]
    exact enters.core.table.file_relink mem'
  obtain ⟨size, slots⟩ := enters.core.table.slots_relink (g := g) mem'
  have dir : (s'.mapVnode sv (onInode (setLinks g))).dir = s'.dir := by rw [SfsFs.dir, slots, SfsFs.dir]
  have ptr (k l : Nat) : (s'.mapVnode sv (onInode (setLinks g))).ptr k l = s'.ptr k l :=
    enters.core.table.ptr_mapVnode mem' rfl rfl rfl
  have root : RootDir (s'.mapVnode sv (onInode (setLinks g))) := by
    refine ⟨⟨?_, ?_⟩, ?_, ?_⟩
    · rw [size]
      exact enters.sized.whole
    · rw [size]
      exact enters.sized.small
    · intro p lt
      rw [size] at lt
      rw [ptr]
      exact enters.filled p lt
    · rw [slots]
      exact distinct
  -- all inodes but `i` have a name if and only if they had one, and `i` is loaded
  have same (k : Nat) : (s'.mapVnode sv (onInode (setLinks g))).Live (s'.mapVnode sv (onInode (setLinks g))).Named k ↔
      s'.Live s.Named k := by
    rw [SfsFs.live_mapVnode rfl, SfsFs.Live, SfsFs.Live]
    by_cases here : k = i
    · have loaded : s'.Loaded k := by
        rw [here, ← ino]
        exact SfsFs.loaded_of_mem mem'
      exact iff_of_true (.inr (.inr loaded)) (.inr (.inr loaded))
    · rw [root.named_iff, h.root.named_iff, dir, others k here]
  have mapped : Frame s' (s'.mapVnode sv (onInode (setLinks g))) := .mapVnode rfl rfl rfl rfl
  refine ⟨⟨?_, root, ?_, ?_⟩, dir, ?_, ?_, ?_⟩
  · refine (enters.core.mapVnode mem' (f := onInode (setLinks g)) rfl rfl id rfl rfl rfl Bool.noConfusion).congr ?_
    intro k
    rw [same, SfsFs.live_mapVnode rfl]
  · intro k hk
    have hk := (live k).1 ((same k).1 hk)
    rw [dir, file]
    by_cases here : k = i
    · have links' : (s'.file i).links = (s.file i).links := enters.links_eq (here ▸ hk)
      rw [here, Function.update_self, links']
      exact links
    · rw [Function.update_of_ne here, enters.links_eq hk, others k here]
      exact h.links k hk
  · rw [mapped.refs, enters.frame.refs, mapped.opens, enters.frame.opens]
    exact h.held
  · rw [mapped.refs, enters.frame.refs]
  · rw [mapped.opens, enters.frame.opens]
  · exact enters.frame.inos.trans mapped.inos

/-- A name has been entered for a loaded inode. -/
lemma Inv.did_link (h : Inv s) (absent : s.dir name.val = none) (free : (s.file 1).slots j = none)
    (enters : Enters s.Named s j (some (name.val, i)) s') (mem : sv ∈ s.vnodes) (ino : (s.vnode sv).ino = i) :
    Did s (Function.update s.dir name.val (some i)) s.refs (s'.mapVnode sv (onInode (setLinks (· + 1)))) := by
  subst ino
  have dir : s'.dir = Function.update s.dir name.val (some (s.vnode sv).ino) := by
    rw [SfsFs.dir, enters.slots, h.root.distinct.map_fill free absent]
    rfl
  have count (k : Nat) : Slots.count s'.dir k = Slots.count s.dir k + if k = (s.vnode sv).ino then 1 else 0 := by
    rw [dir, Slots.count_fill (h.root.finite k) absent]
  rw [← dir]
  refine h.relinked enters ?_ mem ?_ ?_
  · rw [enters.slots]
    exact h.root.distinct.fill absent
  · intro k ne
    rw [count, if_neg ne]
    rfl
  · have small := h.root.count_le (i := (s.vnode sv).ino)
    rw [count, if_pos rfl, UInt16.toNat_add, h.links _ (SfsFs.live_of_mem mem)]
    show (_ + 1) % 65536 = _
    split_ifs <;> omega

/-- A name has been erased. -/
lemma Inv.did_unlink (h : Inv s) {name : List UInt8} (hold : (s.file 1).slots j = some (name, i))
    (enters : Enters s.Named s j none s') (mem : sv ∈ s.vnodes) (ino : (s.vnode sv).ino = i) :
    Did s (Function.update s.dir name none) s.refs (s'.mapVnode sv (onInode (setLinks (· - 1)))) := by
  subst ino
  have named : s.dir name = some (s.vnode sv).ino := h.root.distinct.map_eq_some.2 ⟨j, hold⟩
  have dir : s'.dir = Function.update s.dir name none := by
    rw [SfsFs.dir, enters.slots, h.root.distinct.map_clear hold]
    rfl
  have count (k : Nat) : Slots.count s.dir k = Slots.count s'.dir k + if k = (s.vnode sv).ino then 1 else 0 := by
    rw [dir, ← Slots.count_clear (h.root.finite k) named]
  rw [← dir]
  refine h.relinked enters ?_ mem ?_ ?_
  · rw [enters.slots]
    exact h.root.distinct.clear
  · intro k ne
    rw [count, if_neg ne]
    rfl
  · have links := h.links (s.vnode sv).ino (SfsFs.live_of_mem mem)
    rw [count, if_pos rfl] at links
    have le : (1 : UInt16) ≤ (s.file (s.vnode sv).ino).links := by
      rw [UInt16.le_iff_toNat_le, links]
      show 1 ≤ _
      omega
    rw [UInt16.toNat_sub_of_le _ _ le, links]
    show _ - 1 = _
    omega

/-- The vnode `sv` of the file with a name has been handed out. -/
structure Found (s : SfsFs) (name : CStr) (sv : Nat) (s' : SfsFs) : Prop where
  mem : sv ∈ s'.vnodes
  dir : s.dir name.val = some (s'.vnode sv).ino
  did : Did s s.dir (Function.update s.refs sv (s.refs sv + 1)) s'

/-- A named inode is live. -/
lemma SfsFs.live_of_dir (named : s.dir name.val = some i) : s.Live s.Named i := .inr (.inl ⟨_, named⟩)

/-- The rule of `sfs_lookonce`. -/
lemma Inv.wp_sfsLookonce (h : Inv s) (mem : v ∈ s.vnodes) (ino : (s.vnode v).ino = 1) :
    Prog.wp (sfsLookonce v name)
      (fun r s' => Found s name r.1 s' ∧ (s'.file 1).slots r.2 = some (name.val, (s'.vnode r.1).ino))
      (fun e s' => s' = s ∧ e = enoent ∧ s.dir name.val = none) s := by
  rw [sfsLookonce, Prog.wp_andThen_iff]
  refine (h.core.wp_sfsDirFindname h.root mem ino).mono ?_ (fun _ _ e => e)
  rintro r s₁ ⟨same, seen⟩
  rw [same]
  cases found : r.found with
  | none => exact ⟨rfl, rfl, seen.dir_none found⟩
  | some x =>
    obtain ⟨i, slot⟩ := x
    have named := seen.dir_some h.root found
    have live := SfsFs.live_of_dir named
    dsimp only
    rw [Prog.wp_andThen_iff]
    refine (h.core.wp_sfsLoadvnode live).mono ?_ (fun _ _ e => e)
    intro sv s' loads
    have did := loads.did h live
    have own : (s'.vnode sv).i = s'.inode i := by
      rw [← loads.ino]
      exact (loads.core.table.inode_eq loads.mem).symm
    rw [Prog.wp_andThen_iff]
    refine Prog.wp_of_run rfl ?_
    rw [Prog.wp_andThen_iff]
    refine Prog.wp_of_run rfl ?_
    rw [Prog.wp_andThen_iff]
    refine Prog.wp.require ?_ ?_
    · rw [own]
      have counted := (did.inv.counted (.inr (.inl ⟨name.val, by rw [did.dir, named]⟩))).not
      exact counted.2 (not_not.2 (.inr ⟨name.val, by rw [did.dir, named]⟩))
    · rw [Prog.wp_pure_iff, loads.file, loads.ino]
      exact ⟨⟨loads.mem, by rw [loads.ino, named], did⟩, (seen.found i slot found).2⟩

/-- The root is the one directory. -/
lemma Inv.dir_type (h : Inv s) (mem : v ∈ s.vnodes) : (s.vnode v).i.type = typeDir ↔ (s.vnode v).ino = 1 := by
  rw [← h.core.table.inode_eq mem, h.core.type (SfsFs.live_of_mem mem)]
  split_ifs with one
  · exact iff_of_true rfl one
  · exact iff_of_false (by decide) one

/-- The rule of `sfs_lookup`. -/
lemma Inv.wp_sfsLookup (h : Inv s) (mem : v ∈ s.vnodes) (ino : (s.vnode v).ino = 1) :
    Prog.wp (sfsLookup v name) (Found s name) (fun e s' => s' = s ∧ e = enoent ∧ s.dir name.val = none) s := by
  rw [sfsLookup, Prog.wp_andThen_iff]
  refine Prog.wp_of_run rfl ?_
  rw [if_neg (not_not.2 ((h.dir_type mem).2 ino)), Prog.wp_andThen_iff]
  exact (h.wp_sfsLookonce mem ino).mono (fun _ _ found => found.1) (fun _ _ e => e)

/-- A new file has been created under a name, and its vnode `sv` is handed out. -/
structure Created (s : SfsFs) (name : CStr) (sv : Nat) (s' : SfsFs) : Prop where
  mem : sv ∈ s'.vnodes
  absent : s.dir name.val = none
  new : ¬ s.Live s.Named (s'.vnode sv).ino
  did : Did s (Function.update s.dir name.val (some (s'.vnode sv).ino)) (Function.update s.refs sv (s.refs sv + 1)) s'

/-- Why a file cannot be created. -/
def WhyNoCreat (found : Option Nat) (name : CStr) (excl : Bool) (e : Nat) : Prop :=
  e = eexist ∧ found ≠ none ∧ excl = true ∨
    found = none ∧ (e = enametoolong ∧ 60 ≤ name.val.length ∨ e = enospc ∨ e = efbig)

/-- Taking a reference and dropping it again. -/
lemma update_back (R : Nat → Nat) (sv : Nat) :
    Function.update (Function.update R sv (R sv + 1)) sv (Function.update R sv (R sv + 1) sv - 1) = R := by
  rw [Function.update_idem, Function.update_self, Nat.add_sub_cancel, Function.update_eq_self]

/-- The rule for the name of a new file. -/
lemma Inv.wp_sfsCreatLink (h : Inv s) (mem : v ∈ s.vnodes) (ino : (s.vnode v).ino = 1) (mem' : sv ∈ s.vnodes)
    (held : s.opens sv < s.refs sv) :
    Prog.wp (sfsCreatLink v name sv)
      (fun sw s' => sw = sv ∧ s.dir name.val = none ∧
        Did s (Function.update s.dir name.val (some (s.vnode sv).ino)) s.refs s')
      (fun e s' => Did s s.dir (Function.update s.refs sv (s.refs sv - 1)) s' ∧ WhyNoLink (s.dir name.val) name e) s := by
  rw [sfsCreatLink, Prog.wp_andThen_iff]
  refine Prog.wp_of_run rfl ?_
  rw [Prog.wp_andThen_iff, Prog.wp_attempt_iff]
  refine (h.core.wp_sfsDirLink h.root mem ino (SfsFs.live_of_mem mem')).mono ?_ ?_
  · rintro slot s₁ ⟨absent, free, enters⟩
    dsimp only
    rw [Prog.wp_andThen_iff]
    exact Prog.wp_of_run rfl ⟨rfl, absent, h.did_link absent free enters mem' rfl⟩
  · rintro e s₁ ⟨writes, why⟩
    have did := h.did_nothing writes
    dsimp only
    rw [Prog.wp_andThen_iff]
    have held' : s₁.opens sv < s₁.refs sv := by
      rw [did.opens, did.refs]
      exact held
    refine (did.inv.wp_vopDecref held').mono ?_ (fun _ _ e => e)
    intro _ s₂ did'
    rw [did.dir, did.refs] at did'
    exact ⟨did.trans did', why⟩

/-- The rule of `sfs_creat`. -/
lemma Inv.wp_sfsCreat (h : Inv s) (mem : v ∈ s.vnodes) (ino : (s.vnode v).ino = 1) (excl : Bool) :
    Prog.wp (sfsCreat v name excl)
      (fun sv s' => excl = false ∧ Found s name sv s' ∨ Created s name sv s')
      (fun e s' => Did s s.dir s.refs s' ∧ WhyNoCreat (s.dir name.val) name excl e) s := by
  rw [sfsCreat, Prog.wp_andThen_iff]
  refine (h.core.wp_sfsDirFindname h.root mem ino).mono ?_ (fun _ _ e => e)
  rintro r s₁ ⟨same, seen⟩
  rw [same]
  cases found : r.found with
  | some x =>
    obtain ⟨i, slot⟩ := x
    have named := seen.dir_some h.root found
    dsimp only
    cases excl with
    | true =>
      refine ⟨.refl h, .inl ⟨rfl, ?_, rfl⟩⟩
      rw [named]
      exact nofun
    | false =>
      refine (h.wp_sfsLoadvnode (SfsFs.live_of_dir named)).mono ?_ (fun _ _ e => e)
      rintro sv s' ⟨mem', ino', did⟩
      exact .inl ⟨rfl, mem', by rw [ino', named], did⟩
  | none =>
    have absent := seen.dir_none found
    dsimp only
    rw [Prog.wp_andThen_iff]
    refine h.core.wp_sfsMakeobj.mono ?_ ?_
    · rintro sv s₁ ⟨i, makes⟩
      have did := makes.did h
      obtain ⟨mem₁, ino₁⟩ := did.keeps h mem
      have held : s₁.opens sv < s₁.refs sv := by
        rw [did.opens, did.refs, Function.update_self]
        exact Nat.lt_succ_of_le (h.held sv)
      refine (did.inv.wp_sfsCreatLink mem₁ (ino₁.trans ino) makes.mem held).mono ?_ ?_
      · rintro _ s₂ ⟨rfl, -, did₂⟩
        rw [did.dir, did.refs] at did₂
        have ino₂ := did₂.inos.ino _ (did.inv.core.table.below makes.mem)
        refine .inr ⟨?_, absent, ?_, ?_⟩
        · rw [did₂.inv.core.table.mem_iff, did₂.refs, Function.update_self]
          exact Nat.succ_pos _
        · rw [ino₂, makes.ino]
          exact makes.new
        · rw [ino₂]
          exact did.trans did₂
      · rintro e s₂ ⟨did₂, why⟩
        rw [did.dir, did.refs, update_back] at did₂
        rw [did.dir, absent] at why
        refine ⟨did.trans did₂, .inr ⟨absent, ?_⟩⟩
        obtain ⟨-, no⟩ | ⟨-, long | ⟨-, space⟩⟩ := why
        · exact absurd rfl no
        · exact .inl long
        · exact .inr space
    · rintro e s' ⟨full, rfl⟩
      exact ⟨.refl h, .inr ⟨absent, .inr (.inl full)⟩⟩

/-- The rule of `sfs_link`. -/
lemma Inv.wp_sfsLink (h : Inv s) (mem : v ∈ s.vnodes) (ino : (s.vnode v).ino = 1) (mem' : sv ∈ s.vnodes) :
    Prog.wp (sfsLink v name sv)
      (fun _ s' => s.dir name.val = none ∧ Did s (Function.update s.dir name.val (some (s.vnode sv).ino)) s.refs s')
      (fun e s' => Did s s.dir s.refs s' ∧ WhyNoLink (s.dir name.val) name e) s := by
  rw [sfsLink, Prog.wp_andThen_iff]
  refine Prog.wp_of_run rfl ?_
  rw [Prog.wp_andThen_iff]
  refine (h.core.wp_sfsDirLink h.root mem ino (SfsFs.live_of_mem mem')).mono ?_ ?_
  · rintro slot s₁ ⟨absent, free, enters⟩
    exact Prog.wp_of_run rfl ⟨absent, h.did_link absent free enters mem' rfl⟩
  · rintro e s₁ ⟨writes, why⟩
    exact ⟨h.did_nothing writes, why⟩

/-- The rule for clean-up code. -/
lemma wp_andAlways {α : Type} {m : SfsM α} {after : SfsM Unit} {Q : α → SfsFs → Prop} {E : Nat → SfsFs → Prop}
    (h : Prog.wp m (fun a s => Prog.wp after (fun _ s => Q a s) E s)
      (fun e s => Prog.wp after (fun _ s => E e s) E s) s) : Prog.wp (andAlways m after) Q E s := by
  rw [andAlways, Prog.wp_andThen_iff, Prog.wp_attempt_iff]
  refine h.mono ?_ ?_
  · intro a s' h
    rw [Prog.wp_andThen_iff]
    exact h
  · intro e s' h
    rw [Prog.wp_andThen_iff]
    exact h

/-- The link count of an inode with a name is positive, also when the name has just been erased. -/
lemma Inv.links_pos (h : Inv s) (mem : sv ∈ s.vnodes) (named : s.Named (s.vnode sv).ino)
    {x : Option (List UInt8 × Nat)} (enters : Enters s.Named s j x s') : (s'.vnode sv).i.linkcount > 0 := by
  have live : s.Live s.Named (s.vnode sv).ino := SfsFs.live_of_mem mem
  have mem' : sv ∈ s'.vnodes := enters.frame.vnodes.symm ▸ mem
  have ne : (s'.file (s.vnode sv).ino).links ≠ 0 := by
    rw [enters.links_eq live]
    exact fun zero => (h.counted live).1 zero (.inr named)
  rw [← enters.core.table.inode_eq mem', enters.frame.ino]
  exact UInt16.pos_iff_ne_zero.2 ne

/-- The rule for a name that is removed with its link. -/
lemma Inv.wp_sfsUnlink (h : Inv s) (mem : v ∈ s.vnodes) (ino : (s.vnode v).ino = 1) (mem' : sv ∈ s.vnodes)
    {name : List UInt8} (hold : (s.file 1).slots j = some (name, (s.vnode sv).ino)) {E : Nat → SfsFs → Prop} :
    Prog.wp (sfsUnlink v j sv) (fun _ => Did s (Function.update s.dir name none) s.refs) E s := by
  have named : s.Named (s.vnode sv).ino := ⟨name, h.root.distinct.map_eq_some.2 ⟨j, hold⟩⟩
  rw [sfsUnlink, Prog.wp_andThen_iff]
  refine (h.core.wp_sfsDirUnlink h.root mem ino (File.lt_of_slots hold)).mono ?_ (fun _ _ e => e)
  intro _ s₁ enters
  rw [Prog.wp_andThen_iff]
  refine Prog.wp_of_run rfl ?_
  rw [Prog.wp_andThen_iff]
  refine Prog.wp.require (h.links_pos mem' named enters) ?_
  exact Prog.wp_of_run rfl (h.did_unlink hold enters mem' rfl)

/-- The reference that was taken to look up a name is dropped again. -/
lemma Did.wp_vopDecref (h : Inv s) (did : Did s D (Function.update s.refs sv (s.refs sv + 1)) s')
    {E : Nat → SfsFs → Prop} : Prog.wp (vopDecref sv) (fun _ => Did s D s.refs) E s' := by
  have held : s'.opens sv < s'.refs sv := by
    rw [did.opens, did.refs, Function.update_self]
    exact Nat.lt_succ_of_le (h.held sv)
  refine (did.inv.wp_vopDecref held).mono ?_ (fun _ _ e => e)
  intro _ s₁ did'
  rw [did.dir, did.refs, update_back] at did'
  exact did.trans did'

/-- The rule of `sfs_remove`. -/
lemma Inv.wp_sfsRemove (h : Inv s) (mem : v ∈ s.vnodes) (ino : (s.vnode v).ino = 1) :
    Prog.wp (sfsRemove v name)
      (fun _ s' => s.dir name.val ≠ none ∧ Did s (Function.update s.dir name.val none) s.refs s')
      (fun e s' => s' = s ∧ e = enoent ∧ s.dir name.val = none) s := by
  rw [sfsRemove, Prog.wp_andThen_iff]
  refine (h.wp_sfsLookonce mem ino).mono ?_ (fun _ _ e => e)
  rintro ⟨sv, slot⟩ s₁ ⟨found, hold⟩
  have did := found.did
  obtain ⟨mem₁, ino₁⟩ := did.keeps h mem
  refine wp_andAlways ((did.inv.wp_sfsUnlink mem₁ (ino₁.trans ino) found.mem hold).mono ?_ (fun _ _ e => e))
  intro _ s₂ did₂
  rw [did.dir, did.refs] at did₂
  refine ((did.trans did₂).wp_vopDecref h).mono ?_ (fun _ _ e => e)
  intro _ s₃ did₃
  refine ⟨?_, did₃⟩
  rw [found.dir]
  exact nofun

/-- The part of `sfs_rename` between the lookup and the drop of the reference. The undo path is never taken, as the
old slot can always be erased. -/
lemma Inv.wp_sfsRenameAt (h : Inv s) (mem : v ∈ s.vnodes) (ino : (s.vnode v).ino = 1) (mem' : sv ∈ s.vnodes)
    {n1 : List UInt8} {n2 : CStr} (hold : (s.file 1).slots j = some (n1, (s.vnode sv).ino)) :
    Prog.wp (sfsRenameAt v sv j n2)
      (fun _ s' => s.dir n2.val = none ∧
        Did s (Function.update (Function.update s.dir n2.val (some (s.vnode sv).ino)) n1 none) s.refs s')
      (fun e s' => Did s s.dir s.refs s' ∧ WhyNoLink (s.dir n2.val) n2 e) s := by
  rw [sfsRenameAt, Prog.wp_andThen_iff]
  refine Prog.wp_of_run rfl ?_
  rw [Prog.wp_andThen_iff]
  refine (h.core.wp_sfsDirLink h.root mem ino (SfsFs.live_of_mem mem')).mono ?_ ?_
  · rintro slot s₁ ⟨absent, free, enters⟩
    have did := h.did_link absent free enters mem' rfl
    have mem₁ : sv ∈ s₁.vnodes := enters.frame.vnodes.symm ▸ mem'
    rw [Prog.wp_andThen_iff]
    refine Prog.wp_of_run (t := s₁.mapVnode sv (onInode (setLinks (· + 1)))) rfl ?_
    have slots := (enters.core.table.slots_relink (g := (· + 1)) mem₁).2
    generalize s₁.mapVnode sv (onInode (setLinks (· + 1))) = s₂ at did slots ⊢
    -- the old slot is still there
    have hold₂ : (s₂.file 1).slots j = some (n1, (s.vnode sv).ino) := by
      have other : j ≠ slot := by
        rintro rfl
        rw [free] at hold
        cases hold
      rw [slots, enters.slots, Function.update_of_ne other, hold]
    have mem₂ : sv ∈ s₂.vnodes := by
      rw [did.inv.core.table.mem_iff, did.refs]
      exact h.core.table.mem_iff.1 mem'
    have vmem₂ : v ∈ s₂.vnodes := by
      rw [did.inv.core.table.mem_iff, did.refs]
      exact h.core.table.mem_iff.1 mem
    have ino₂ : (s₂.vnode sv).ino = (s.vnode sv).ino := did.inos.ino sv (h.core.table.below mem')
    have vino₂ : (s₂.vnode v).ino = 1 := (did.inos.ino v (h.core.table.below mem)).trans ino
    have named : s₂.Named (s₂.vnode sv).ino := by
      refine ⟨n1, did.inv.root.distinct.map_eq_some.2 ⟨j, ?_⟩⟩
      rw [hold₂, ino₂]
    rw [Prog.wp_andThen_iff, Prog.wp_attempt_iff]
    refine (did.inv.core.wp_sfsDirUnlink did.inv.root vmem₂ vino₂ (File.lt_of_slots hold₂)
      (E := fun _ _ => False)).mono ?_ (fun _ _ no => no.elim)
    intro _ s₃ enters₃
    dsimp only
    rw [Prog.wp_andThen_iff]
    refine Prog.wp_of_run rfl ?_
    rw [Prog.wp_andThen_iff]
    refine Prog.wp.require (did.inv.links_pos mem₂ named enters₃) ?_
    have did₃ := did.inv.did_unlink hold₂ enters₃ mem₂ ino₂
    rw [did.dir, did.refs] at did₃
    exact Prog.wp_of_run rfl ⟨absent, did.trans did₃⟩
  · rintro e s₁ ⟨writes, why⟩
    exact ⟨h.did_nothing writes, why⟩

/-- The rule of `sfs_rename`. -/
lemma Inv.wp_sfsRename (h : Inv s) (mem : v ∈ s.vnodes) (ino : (s.vnode v).ino = 1) {n1 n2 : CStr}
    (file : s.dir n1.val ≠ some 1) :
    Prog.wp (sfsRename v n1 v n2)
      (fun _ s' => ∃ i, s.dir n1.val = some i ∧ s.dir n2.val = none ∧
        Did s (Function.update (Function.update s.dir n2.val (some i)) n1.val none) s.refs s')
      (fun e s' => Did s s.dir s.refs s' ∧
        (e = enoent ∧ s.dir n1.val = none ∨ s.dir n1.val ≠ none ∧ WhyNoLink (s.dir n2.val) n2 e)) s := by
  rw [sfsRename, Prog.wp_andThen_iff]
  refine Prog.wp_of_run rfl ?_
  rw [Prog.wp_andThen_iff]
  refine Prog.wp.require rfl ?_
  rw [Prog.wp_andThen_iff]
  refine Prog.wp.require ino ?_
  rw [Prog.wp_andThen_iff]
  refine (h.wp_sfsLookonce mem ino).mono ?_ ?_
  · rintro ⟨sv, slot⟩ s₁ ⟨found, hold⟩
    have did := found.did
    obtain ⟨mem₁, ino₁⟩ := did.keeps h mem
    have notRoot : (s₁.vnode sv).ino ≠ 1 := by
      intro one
      exact file (by rw [found.dir, one])
    have type : (s₁.vnode sv).i.type = typeFile := by
      rw [← did.inv.core.table.inode_eq found.mem, did.inv.core.type (SfsFs.live_of_mem found.mem), if_neg notRoot]
    rw [Prog.wp_andThen_iff]
    refine Prog.wp_of_run rfl ?_
    rw [Prog.wp_andThen_iff]
    refine Prog.wp.require type ?_
    refine wp_andAlways ((did.inv.wp_sfsRenameAt mem₁ (ino₁.trans ino) found.mem hold).mono ?_ ?_)
    · rintro _ s₂ ⟨absent, did₂⟩
      rw [did.dir, did.refs] at did₂
      rw [did.dir] at absent
      refine ((did.trans did₂).wp_vopDecref h).mono ?_ (fun _ _ e => e)
      intro _ s₃ did₃
      exact ⟨_, found.dir, absent, did₃⟩
    · rintro e s₂ ⟨did₂, why⟩
      rw [did.dir, did.refs] at did₂
      rw [did.dir] at why
      refine ((did.trans did₂).wp_vopDecref h).mono ?_ (fun _ _ e => e)
      intro _ s₃ did₃
      refine ⟨did₃, .inr ⟨?_, why⟩⟩
      rw [found.dir]
      exact nofun
  · rintro e s₁ ⟨rfl, none, absent⟩
    exact ⟨.refl h, .inl ⟨none, absent⟩⟩

/-- Renaming a name of the root directory stops the machine. -/
lemma Inv.sfsRename_root (h : Inv s) (mem : v ∈ s.vnodes) (ino : (s.vnode v).ino = 1) {n1 n2 : CStr}
    (root : s.dir n1.val = some 1) :
    sfsRename v n1 v n2 s = .error (.kassert "g1->sv_i.sfi_type == SFS_TYPE_FILE") := by
  have look : Prog.wp (sfsLookonce v n1) _ _ s := h.wp_sfsLookonce mem ino
  obtain ⟨r, s₁, run, ok, err⟩ := Prog.wp_iff.1 look
  cases r with
  | error e =>
    have none := (err e rfl).2.2
    rw [root] at none
    cases none
  | ok r =>
    obtain ⟨found, -⟩ := ok r rfl
    have one : (s₁.vnode r.1).ino = 1 := by
      have named := found.dir
      rw [root] at named
      exact (Option.some.inj named).symm
    have type : (s₁.vnode r.1).i.type = typeDir := (found.did.inv.dir_type found.mem).2 one
    have asserts (c : Prop) [Decidable c] (cond : String) (hc : c) (t : SfsFs) :
        (sfsAssert c cond : SfsM Unit) t = .ok (.ok (), t) := by
      rw [sfsAssert, Prog.require, if_pos hc]
      rfl
    rw [sfsRename, Prog.andThen_of_run (a := s.vnode v) (t := s) rfl, Prog.andThen_of_run (asserts _ _ rfl s),
      Prog.andThen_of_run (asserts _ _ ino s), Prog.andThen_of_run run,
      Prog.andThen_of_run (a := s₁.vnode r.1) (t := s₁) rfl, type]
    exact Prog.andThen_of_halt (Prog.require_of_not (by decide))

end

end PDS.Sfs
