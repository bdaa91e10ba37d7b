import PDS.Sfs.Truncate

/-!
# The life of a vnode

A vnode is made when its inode is first needed, counts its references, and is destroyed when the last one is
dropped. An inode that has no name any more lives as long as its vnode; then its blocks are given back.
-/

namespace PDS.Sfs
open Kern Word

/-- The references to a vnode; there are none if it is not in the table. -/
def SfsFs.refs (s : SfsFs) (sv : Nat) : Nat := if sv ∈ s.vnodes then (s.vnode sv).refcount else 0

/-- How often a vnode is open. -/
def SfsFs.opens (s : SfsFs) (sv : Nat) : Nat := if sv ∈ s.vnodes then (s.vnode sv).opencount else 0

/-- The vnodes that have been made so far belong to the same inodes, even when they have been destroyed. -/
structure SameInos (s s' : SfsFs) : Prop where
  next : s.next ≤ s'.next
  ino : ∀ sv < s.next, (s'.vnode sv).ino = (s.vnode sv).ino

/-- A vnode is added to the table. -/
def SfsFs.addVnode (s : SfsFs) (v : SfsVnode) : SfsFs :=
  { s with vnode := Function.update s.vnode s.next v, vnodes := s.vnodes ++ [s.next], next := s.next + 1 }

/-- A vnode is removed from the table. -/
def SfsFs.dropVnode (s : SfsFs) (sv : Nat) : SfsFs := { s with vnodes := s.vnodes.erase sv }

section

variable {s s' s'' : SfsFs} {N : Nat → Prop} {sv sw i j k b : Nat} {v : SfsVnode}

/-- The references of a vnode in the table. -/
lemma SfsFs.refs_of_mem (mem : sv ∈ s.vnodes) : s.refs sv = (s.vnode sv).refcount := if_pos mem

/-- The opens of a vnode in the table. -/
lemma SfsFs.opens_of_mem (mem : sv ∈ s.vnodes) : s.opens sv = (s.vnode sv).opencount := if_pos mem

/-- A vnode is in the table while it has references. -/
lemma Table.mem_iff (h : Table s) : sv ∈ s.vnodes ↔ 0 < s.refs sv := by
  constructor
  · intro mem
    rw [SfsFs.refs_of_mem mem]
    exact h.refs mem
  · intro pos
    by_contra no
    rw [SfsFs.refs, if_neg no] at pos
    omega

/-- Frames change no reference. -/
lemma Frame.refs (h : Frame s s') : s'.refs = s.refs := by
  funext sv
  rw [SfsFs.refs, SfsFs.refs, h.vnodes, h.refcount]

/-- Frames change no open count. -/
lemma Frame.opens (h : Frame s s') : s'.opens = s.opens := by
  funext sv
  rw [SfsFs.opens, SfsFs.opens, h.vnodes, h.opencount]

/-- Nothing has changed. -/
lemma SameInos.refl (s : SfsFs) : SameInos s s := ⟨Nat.le_refl _, fun _ _ => rfl⟩

/-- Inode numbers that stay, stay over two steps. -/
lemma SameInos.trans (h : SameInos s s') (h' : SameInos s' s'') : SameInos s s'' where
  next := h.next.trans h'.next
  ino sv lt := (h'.ino sv (lt.trans_le h.next)).trans (h.ino sv lt)

/-- Frames change no inode number. -/
lemma Frame.inos (h : Frame s s') : SameInos s s' := ⟨h.next.ge, fun sv _ => h.ino sv⟩

/-- The next vnode is a new one. -/
lemma Table.next_not_mem (h : Table s) : s.next ∉ s.vnodes := fun mem => Nat.lt_irrefl _ (h.below mem)

/-- The old vnodes after one is added. -/
lemma Table.vnode_addVnode (h : Table s) (mem : sw ∈ s.vnodes) : (s.addVnode v).vnode sw = s.vnode sw :=
  Function.update_of_ne (fun e : sw = s.next => h.next_not_mem (e ▸ mem)) ..

/-- A vnode that is added changes no inode number. -/
lemma SameInos.addVnode : SameInos s (s.addVnode v) where
  next := Nat.le_succ _
  ino _ lt := congrArg SfsVnode.ino (Function.update_of_ne (Nat.ne_of_lt lt) ..)

/-- The vnode that was added. -/
lemma SfsFs.vnode_addVnode_next : (s.addVnode v).vnode s.next = v := Function.update_self ..

/-- The table after one is added. -/
lemma SfsFs.mem_addVnode : sw ∈ (s.addVnode v).vnodes ↔ sw ∈ s.vnodes ∨ sw = s.next := by
  simp [SfsFs.addVnode]

/-- The loaded inodes after one is added. -/
lemma Table.loaded_addVnode (h : Table s) : (s.addVnode v).Loaded i ↔ s.Loaded i ∨ i = v.ino := by
  constructor
  · rintro ⟨sw, mem, rfl⟩
    obtain mem | rfl := SfsFs.mem_addVnode.1 mem
    · rw [h.vnode_addVnode mem]
      exact .inl ⟨sw, mem, rfl⟩
    · rw [SfsFs.vnode_addVnode_next]
      exact .inr rfl
  · rintro (⟨sw, mem, rfl⟩ | rfl)
    · exact ⟨sw, SfsFs.mem_addVnode.2 (.inl mem), by rw [h.vnode_addVnode mem]⟩
    · exact ⟨s.next, SfsFs.mem_addVnode.2 (.inr rfl), by rw [SfsFs.vnode_addVnode_next]⟩

/-- The table stays in order. -/
lemma Table.addVnode (h : Table s) (new : ¬ s.Loaded v.ino) (ops : v.ops = if v.ino = 1 then .dir else .file)
    (refs : 0 < v.refcount) : Table (s.addVnode v) where
  nodup := by
    have := h.next_not_mem
    refine List.Nodup.append h.nodup (List.nodup_singleton _) ?_
    simpa using this
  below {sw} mem := by
    show sw < s.next + 1
    obtain mem | rfl := SfsFs.mem_addVnode.1 mem
    · have := h.below mem
      omega
    · omega
  inj {sv sw} mem mem' eq := by
    obtain mem | rfl := SfsFs.mem_addVnode.1 mem
    · obtain mem' | rfl := SfsFs.mem_addVnode.1 mem'
      · rw [h.vnode_addVnode mem, h.vnode_addVnode mem'] at eq
        exact h.inj mem mem' eq
      · rw [h.vnode_addVnode mem, SfsFs.vnode_addVnode_next] at eq
        exact absurd ⟨sv, mem, eq⟩ new
    · obtain mem' | rfl := SfsFs.mem_addVnode.1 mem'
      · rw [h.vnode_addVnode mem', SfsFs.vnode_addVnode_next] at eq
        exact absurd ⟨sw, mem', eq.symm⟩ new
      · rfl
  ops {sw} mem := by
    obtain mem | rfl := SfsFs.mem_addVnode.1 mem
    · rw [h.vnode_addVnode mem]
      exact h.ops mem
    · rw [SfsFs.vnode_addVnode_next]
      exact ops
  refs {sw} mem := by
    obtain mem | rfl := SfsFs.mem_addVnode.1 mem
    · rw [h.vnode_addVnode mem]
      exact h.refs mem
    · rw [SfsFs.vnode_addVnode_next]
      exact refs

/-- The inodes, when a vnode is added. -/
lemma Table.inode_addVnode (h : Table s) (h' : Table (s.addVnode v)) :
    (s.addVnode v).inode i = if i = v.ino then v.i else s.inode i := by
  split_ifs with e
  · have own := h'.inode_eq (SfsFs.mem_addVnode.2 (.inr rfl))
    rw [SfsFs.vnode_addVnode_next] at own
    rw [e]
    exact own
  · by_cases loaded : s.Loaded i
    · obtain ⟨sw, mem, rfl⟩ := loaded
      have own := h'.inode_eq (SfsFs.mem_addVnode.2 (.inl mem))
      rw [h.vnode_addVnode mem] at own
      rw [own, h.inode_eq mem]
    · have loaded' : ¬ (s.addVnode v).Loaded i := by
        rw [h.loaded_addVnode]
        rintro (l | l)
        · exact loaded l
        · exact e l
      rw [SfsFs.inode_of_not_loaded loaded, SfsFs.inode_of_not_loaded loaded']
      rfl

/-- The references after one is added. -/
lemma Table.refs_addVnode (h : Table s) : (s.addVnode v).refs = Function.update s.refs s.next v.refcount := by
  funext sw
  by_cases e : sw = s.next
  · rw [e, Function.update_self, SfsFs.refs_of_mem (SfsFs.mem_addVnode.2 (.inr rfl)), SfsFs.vnode_addVnode_next]
  · rw [Function.update_of_ne e, SfsFs.refs, SfsFs.refs]
    by_cases mem : sw ∈ s.vnodes
    · rw [if_pos mem, if_pos (SfsFs.mem_addVnode.2 (.inl mem)), h.vnode_addVnode mem]
    · rw [if_neg mem, if_neg]
      intro mem'
      exact (SfsFs.mem_addVnode.1 mem').elim mem e

/-- The opens after one is added. -/
lemma Table.opens_addVnode (h : Table s) (closed : v.opencount = 0) : (s.addVnode v).opens = s.opens := by
  funext sw
  rw [SfsFs.opens, SfsFs.opens]
  by_cases mem : sw ∈ s.vnodes
  · rw [if_pos mem, if_pos (SfsFs.mem_addVnode.2 (.inl mem)), h.vnode_addVnode mem]
  · rw [if_neg mem]
    split_ifs with mem'
    · obtain rfl := (SfsFs.mem_addVnode.1 mem').resolve_left mem
      rw [SfsFs.vnode_addVnode_next]
      exact closed
    · rfl

/-- The vnode `sv` of the inode `i` has been handed out: there is one more reference to it, and no file changes. -/
structure Loads (N : Nat → Prop) (s : SfsFs) (i sv : Nat) (s' : SfsFs) : Prop where
  core : Core s' N
  mem : sv ∈ s'.vnodes
  ino : (s'.vnode sv).ino = i
  inos : SameInos s s'
  loaded : ∀ j, s'.Loaded j ↔ s.Loaded j ∨ j = i
  file : s'.file = s.file
  ptr : s'.ptr = s.ptr
  refs : s'.refs = Function.update s.refs sv (s.refs sv + 1)
  opens : s'.opens = s.opens

/-- Pointers depend on the inodes and the disk. -/
lemma SfsFs.ptr_of_inode (inode : s'.inode = s.inode) (dev : s'.dev = s.dev) : s'.ptr = s.ptr := by
  funext i k
  rw [SfsFs.ptr, SfsFs.ptr, inode, dev]

/-- Files depend on the inodes and the disk. -/
lemma SfsFs.file_of_inode (inode : s'.inode = s.inode) (dev : s'.dev = s.dev) : s'.file = s.file := by
  funext i
  rw [SfsFs.file, SfsFs.file, inode, dev, SfsFs.ptr_of_inode inode dev]

/-- The inodes in use, when one of them is loaded. -/
lemma SfsFs.Live.loads (live : s.Live N i) (loaded : ∀ j, s'.Loaded j ↔ s.Loaded j ∨ j = i) :
    s'.Live N j ↔ s.Live N j := by
  constructor
  · rintro (one | named | l)
    · exact .inl one
    · exact .inr (.inl named)
    · obtain l | rfl := (loaded j).1 l
      · exact .inr (.inr l)
      · exact live
  · rintro (one | named | l)
    · exact .inl one
    · exact .inr (.inl named)
    · exact .inr (.inr ((loaded j).2 (.inl l)))

/-- The inodes, when a vnode changes but not its inode. -/
lemma Table.inode_keep (h : Table s) (mem : sv ∈ s.vnodes) {f : SfsVnode → SfsVnode}
    (ino : (f (s.vnode sv)).ino = (s.vnode sv).ino) (same : (f (s.vnode sv)).i = (s.vnode sv).i) :
    (s.mapVnode sv f).inode = s.inode := by
  rw [h.inode_mapVnode mem ino, same, ← h.inode_eq mem, Function.update_eq_self]

/-- One more reference to a vnode. -/
lemma Core.loads_incref (h : Core s N) (mem : sv ∈ s.vnodes) :
    Loads N s (s.vnode sv).ino sv (s.mapVnode sv fun v => { v with refcount := v.refcount + 1 }) := by
  have inode : (s.mapVnode sv fun v => { v with refcount := v.refcount + 1 }).inode = s.inode :=
    h.table.inode_keep mem rfl rfl
  have own : (s.mapVnode sv fun v => { v with refcount := v.refcount + 1 }).vnode sv =
      { s.vnode sv with refcount := (s.vnode sv).refcount + 1 } := Function.update_self ..
  have other (sw : Nat) (ne : sw ≠ sv) : (s.mapVnode sv fun v => { v with refcount := v.refcount + 1 }).vnode sw =
      s.vnode sw := Function.update_of_ne ne ..
  refine ⟨?_, mem, ?_, ?_, ?_, SfsFs.file_of_inode inode rfl, SfsFs.ptr_of_inode inode rfl, ?_, ?_⟩
  · exact h.mapVnode mem rfl rfl (fun _ => Nat.succ_pos _) rfl rfl rfl (h.disk.inode mem)
  · rw [own]
  · exact ⟨Nat.le_refl _, fun sw _ => SfsFs.ino_mapVnode (f := fun v => { v with refcount := v.refcount + 1 }) rfl sw⟩
  · intro i
    rw [SfsFs.loaded_mapVnode rfl]
    refine (or_iff_left_of_imp ?_).symm
    rintro rfl
    exact SfsFs.loaded_of_mem mem
  · funext sw
    by_cases e : sw = sv
    · rw [e, Function.update_self, SfsFs.refs_of_mem mem, SfsFs.refs_of_mem (s := s.mapVnode ..) mem, own]
    · rw [Function.update_of_ne e, SfsFs.refs, SfsFs.refs, other sw e]
      rfl
  · funext sw
    by_cases e : sw = sv
    · rw [e, SfsFs.opens_of_mem mem, SfsFs.opens_of_mem (s := s.mapVnode ..) mem, own]
    · rw [SfsFs.opens, SfsFs.opens, other sw e]
      rfl

/-- A vnode is made for an inode that is in use but not loaded. -/
lemma Core.loads_add (h : Core s N) (live : s.Live N i) (new : ¬ s.Loaded i)
    (v : SfsVnode) (hv : v = ⟨if i = 1 then .dir else .file, 1, 0, s.inode i, i, false⟩) :
    Loads N s i s.next (s.addVnode v) := by
  have ino : v.ino = i := by rw [hv]
  have own : v.i = s.inode i := by rw [hv]
  have table : Table (s.addVnode v) := h.table.addVnode (ino.symm ▸ new) (by rw [hv]) (by rw [hv]; exact Nat.one_pos)
  have inode : (s.addVnode v).inode = s.inode := by
    funext j
    rw [h.table.inode_addVnode table, ino, own]
    split_ifs with e
    · rw [e]
    · rfl
  have loaded (j : Nat) : (s.addVnode v).Loaded j ↔ s.Loaded j ∨ j = i := by
    rw [h.table.loaded_addVnode, ino]
  have live' (j : Nat) : (s.addVnode v).Live N j ↔ s.Live N j := live.loads loaded
  have next : s.refs s.next = 0 := if_neg h.table.next_not_mem
  refine ⟨?_, SfsFs.mem_addVnode.2 (.inr rfl), ?_, .addVnode, loaded, SfsFs.file_of_inode inode rfl,
    SfsFs.ptr_of_inode inode rfl, ?_, h.table.opens_addVnode (by rw [hv])⟩
  · refine ⟨⟨h.geom.fits, h.geom.small, h.geom.dev⟩, table, ?_, ?_, ?_⟩
    · refine ⟨?_, h.disk.map, h.disk.super, h.disk.magic, h.disk.superclean⟩
      intro sw mem dirty
      obtain mem | rfl := SfsFs.mem_addVnode.1 mem
      · rw [h.table.vnode_addVnode mem] at dirty ⊢
        exact h.disk.inode mem dirty
      · rw [SfsFs.vnode_addVnode_next, ino, own, SfsFs.inode_of_not_loaded new]
        rfl
    · intro j hj
      rw [inode]
      exact h.type ((live' j).1 hj)
    · exact h.own_congr rfl live' (fun j l _ => by rw [SfsFs.ptr_of_inode inode rfl]) rfl
  · rw [SfsFs.vnode_addVnode_next, ino]
  · rw [h.table.refs_addVnode, next, hv]

/-- The rule of `sfs_bused`. -/
lemma wp_sfsBused (lt : b < s.nblocks) {Q : Bool → SfsFs → Prop} {E : Nat → SfsFs → Prop} (ok : Q (s.freemap b) s) :
    Prog.wp (sfsBused b) Q E s := by
  rw [sfsBused, Prog.wp_andThen_iff, Prog.wp_get_iff, Prog.wp_andThen_iff]
  exact Prog.wp.require lt ok

/-- The block of a loaded inode is in use. -/
lemma Core.vnode_used (h : Core s N) (mem : sv ∈ s.vnodes) :
    (s.vnode sv).ino < s.nblocks ∧ s.freemap (s.vnode sv).ino = true :=
  have live : s.Live N (s.vnode sv).ino := SfsFs.live_of_mem mem
  ⟨h.inode_lt live, h.inode_marked live⟩

/-- The search in the table of vnodes. -/
lemma wp_sfsFindvnode (vnodes : List Nat)
    (used : ∀ sw ∈ vnodes, (s.vnode sw).ino < s.nblocks ∧ s.freemap (s.vnode sw).ino = true)
    {Q : Option Nat → SfsFs → Prop} {E : Nat → SfsFs → Prop}
    (found : ∀ sw ∈ vnodes, (s.vnode sw).ino = i → Q (some sw) s)
    (none : (∀ sw ∈ vnodes, (s.vnode sw).ino ≠ i) → Q none s) : Prog.wp (sfsFindvnode i vnodes) Q E s := by
  induction vnodes with
  | nil => exact none nofun
  | cons sw vnodes ih =>
    obtain ⟨lt, marked⟩ := used sw List.mem_cons_self
    rw [sfsFindvnode, Prog.wp_andThen_iff]
    refine Prog.wp_of_run rfl ?_
    rw [Prog.wp_andThen_iff]
    refine wp_sfsBused lt ?_
    rw [Prog.wp_andThen_iff]
    refine Prog.wp.require marked ?_
    split_ifs with same
    · exact found sw List.mem_cons_self same
    · refine ih (fun sx mem => used sx (List.mem_cons_of_mem _ mem))
        (fun sx mem => found sx (List.mem_cons_of_mem _ mem)) (fun all => none ?_)
      intro sx mem
      cases mem with
      | head => exact same
      | tail _ mem => exact all sx mem

/-- An inode that is in use is loaded. -/
lemma Core.wp_sfsLoadvnode (h : Core s N) (live : s.Live N i) {E : Nat → SfsFs → Prop} :
    Prog.wp (sfsLoadvnode i typeInval) (Loads N s i) E s := by
  rw [sfsLoadvnode, Prog.wp_andThen_iff, Prog.wp_get_iff, Prog.wp_andThen_iff]
  refine wp_sfsFindvnode s.vnodes (fun _ mem => h.vnode_used mem) ?_ ?_
  · rintro sv mem rfl
    dsimp only
    rw [Prog.wp_andThen_iff]
    refine Prog.wp.require rfl ?_
    rw [Prog.wp_andThen_iff]
    exact Prog.wp_of_run rfl (h.loads_incref mem)
  · intro none
    have new : ¬ s.Loaded i := by
      rintro ⟨sw, mem, same⟩
      exact none sw mem same
    have inode := SfsFs.inode_of_not_loaded new
    have type := h.type live
    dsimp only
    rw [sfsReadvnode, Prog.wp_andThen_iff]
    refine wp_sfsBused (h.inode_lt live) ?_
    rw [Prog.wp_andThen_iff]
    refine Prog.wp.require (h.inode_marked live) ?_
    rw [Prog.wp_andThen_iff]
    refine Prog.wp_of_run (rblock_eq h.geom (h.inode_lt live)) ?_
    rw [← inode, sfsForcetype, if_neg (fun ne => ne rfl), Prog.wp_andThen_iff, Prog.wp_pure_iff, Prog.wp_andThen_iff]
    have ops : sfsOps i (s.inode i).type = pure (if i = 1 then .dir else .file) := by
      by_cases one : i = 1
      · rw [type, if_pos one, if_pos one]
        rfl
      · rw [type, if_neg one, if_neg one]
        rfl
    rw [ops, Prog.wp_pure_iff, Prog.wp_andThen_iff, Prog.wp_get_iff]
    exact h.loads_add live new _ rfl

/-- A regular file without contents and without names. -/
def File.new : File := ⟨typeFile, 0, 0, fun _ => Block.zeros⟩

/-- The inode of a new file. -/
def SfsInode.new : SfsInode := { SfsInode.blank with type := typeFile }

/-- The inode `i` of a new file has been made, and its vnode `sv` is handed out. -/
structure Makes (N : Nat → Prop) (s : SfsFs) (i sv : Nat) (s' : SfsFs) : Prop where
  new : ¬ s.Live N i
  core : Core s' N
  mem : sv ∈ s'.vnodes
  ino : (s'.vnode sv).ino = i
  inos : SameInos s s'
  loaded : ∀ j, s'.Loaded j ↔ s.Loaded j ∨ j = i
  file : s'.file i = File.new
  blank : ∀ l, s'.ptr i l = 0
  files : ∀ j, s.Live N j → s'.file j = s.file j
  ptr : ∀ j l, s.Live N j → s'.ptr j l = s.ptr j l
  refs : s'.refs = Function.update s.refs sv (s.refs sv + 1)
  opens : s'.opens = s.opens

/-- A new inode has no block. -/
lemma ptrOf_new (sect : Nat → Block) (k : Nat) : ptrOf sect SfsInode.new k = 0 := by
  obtain lt | rfl | gt := lt_trichotomy k 15
  · rw [ptrOf_of_lt _ _ lt]
    rfl
  · rw [ptrOf_indirect]
    rfl
  · rw [ptrOf_of_gt _ _ gt, if_neg (fun c => c.2 rfl)]

/-- A free block becomes the inode of a new file. -/
lemma Core.makes (h : Core s N) (free : s.freemap b = false) (lt : b < s.nblocks) :
    Makes N s b s.next ((s.take b).addVnode ⟨.file, 1, 0, SfsInode.new, b, true⟩) := by
  generalize hv : (⟨.file, 1, 0, SfsInode.new, b, true⟩ : SfsVnode) = v
  have ino : v.ino = b := by rw [← hv]
  have idle := h.free_not_live free
  have notRoot : b ≠ 1 := fun e => idle (.inl e)
  have table₁ : Table (s.take b) := h.table.of_frame .take
  have table : Table ((s.take b).addVnode v) := by
    refine table₁.addVnode ?_ ?_ ?_
    · intro loaded
      rw [ino, Frame.take.loaded_iff] at loaded
      exact idle (.inr (.inr loaded))
    · rw [ino, if_neg notRoot, ← hv]
    · rw [← hv]
      exact Nat.one_pos
  have loaded (j : Nat) : ((s.take b).addVnode v).Loaded j ↔ s.Loaded j ∨ j = b := by
    rw [table₁.loaded_addVnode, ino, Frame.take.loaded_iff]
  have live (j : Nat) : ((s.take b).addVnode v).Live N j ↔ s.Live N j ∨ j = b := by
    rw [SfsFs.Live, SfsFs.Live, loaded, or_assoc, or_assoc]
  have inode (j : Nat) (hj : s.Live N j) : ((s.take b).addVnode v).inode j = s.inode j := by
    have ne : j ≠ b := fun e => idle (e ▸ hj)
    rw [table₁.inode_addVnode table, ino, if_neg ne, h.inode_take free hj]
  have inode' : ((s.take b).addVnode v).inode b = SfsInode.new := by
    rw [table₁.inode_addVnode table, ino, if_pos rfl, ← hv]
  have ptr (j l : Nat) (hj : s.Live N j) : ((s.take b).addVnode v).ptr j l = s.ptr j l := by
    rw [← h.ptr_take free hj, SfsFs.ptr, SfsFs.ptr, inode j hj, h.inode_take free hj]
    rfl
  have blank (l : Nat) : ((s.take b).addVnode v).ptr b l = 0 := by
    rw [SfsFs.ptr, inode', ptrOf_new]
  have next : s.refs s.next = 0 := if_neg h.table.next_not_mem
  refine ⟨idle, ?_, SfsFs.mem_addVnode.2 (.inr rfl), ?_, Frame.take.inos.trans .addVnode, loaded, ?_, blank, ?_, ptr,
    ?_, ?_⟩
  · refine ⟨⟨h.geom.fits, h.geom.small, h.geom.dev⟩, table, ?_, ?_, ?_⟩
    · have zero := h.sect_take_zero free
      refine ⟨?_, (fun no => by cases no), zero ▸ h.disk.super, zero ▸ h.disk.magic, h.disk.superclean⟩
      intro sw mem dirty
      obtain mem | rfl := SfsFs.mem_addVnode.1 mem
      · rw [table₁.vnode_addVnode mem] at dirty ⊢
        have read := h.sect_take_inode free mem
        refine Eq.trans (congrArg SfsInode.ofBlock read) ?_
        exact h.disk.inode mem dirty
      · rw [SfsFs.vnode_addVnode_next, ← hv] at dirty
        cases dirty
    · intro j hj
      obtain hj | rfl := (live j).1 hj
      · rw [inode j hj]
        exact h.type hj
      · rw [inode', if_neg notRoot]
        rfl
    · exact h.own_inode free lt rfl live ptr blank rfl
  · rw [← ino]
    exact congrArg SfsVnode.ino (SfsFs.vnode_addVnode_next (s := s.take b))
  · apply File.ext
    · exact congrArg SfsInode.type inode'
    · exact congrArg SfsInode.linkcount inode'
    · exact congrArg (fun i => UInt32.toNat (SfsInode.size i)) inode'
    · funext fb
      exact if_pos (blank _)
  · intro j hj
    have same := inode j hj
    refine SfsFs.file_eq (by rw [same]) (by rw [same]) (by rw [same]) ?_
    intro fb
    dsimp only [SfsFs.file]
    rw [ptr j _ hj]
    split_ifs
    · rfl
    · exact h.sect_take_ptr free hj
  · rw [table₁.refs_addVnode, Frame.take.refs, next, ← hv]
    rfl
  · rw [table₁.opens_addVnode (by rw [← hv]), Frame.take.opens]

/-- The rule of `sfs_makeobj`. -/
lemma Core.wp_sfsMakeobj (h : Core s N) :
    Prog.wp (sfsMakeobj typeFile) (fun sv s' => ∃ i, Makes N s i sv s') (fun e s' => e = enospc ∧ s' = s) s := by
  rw [sfsMakeobj, Prog.wp_andThen_iff]
  refine h.wp_sfsBalloc ?_ ⟨rfl, rfl⟩
  intro b free lt
  have idle := h.free_not_live free
  have geom : Geom (s.take b) := h.geom.take b
  have marked : (s.take b).freemap b = true := Function.update_self ..
  have lt₁ : b < (s.take b).nblocks := lt
  rw [sfsLoadvnode, Prog.wp_andThen_iff, Prog.wp_get_iff, Prog.wp_andThen_iff]
  refine wp_sfsFindvnode _ ?_ ?_ ?_
  · intro sw mem
    obtain ⟨lt', marked'⟩ := h.vnode_used mem
    refine ⟨lt', ?_⟩
    show Function.update s.freemap b true (s.vnode sw).ino = true
    rw [Function.update_apply, marked', ite_self]
  · intro sw mem same
    exact absurd (.inr (.inr ⟨sw, mem, same⟩)) idle
  · intro _
    dsimp only
    rw [sfsReadvnode, Prog.wp_andThen_iff]
    refine wp_sfsBused lt₁ ?_
    rw [Prog.wp_andThen_iff]
    refine Prog.wp.require marked ?_
    rw [Prog.wp_andThen_iff]
    refine Prog.wp_of_run (rblock_eq geom lt₁) ?_
    rw [SfsFs.sect_take_self, SfsInode.ofBlock_zeros, sfsForcetype, if_pos (by decide), Prog.wp_andThen_iff,
      Prog.wp_andThen_iff]
    refine Prog.wp.require rfl ?_
    exact ⟨b, h.makes free lt⟩

/-- A vnode is clean now, and nothing else has changed. -/
structure Synced (N : Nat → Prop) (s : SfsFs) (sv : Nat) (s' : SfsFs) : Prop where
  core : Core s' N
  frame : Frame s s'
  vnode : s'.vnode = Function.update s.vnode sv { s.vnode sv with dirty := false }
  map : s'.freemap = s.freemap
  mapdirty : s'.freemapdirty = s.freemapdirty
  files : SameFiles N s s'
  ptr : ∀ j l, s.Live N j → s'.ptr j l = s.ptr j l

/-- The block of a loaded inode is no part of a file. -/
lemma Core.file_write_inode (h : Core s N) (mem : sv ∈ s.vnodes) (live : s.Live N j) {data : Block} :
    (s.write (s.vnode sv).ino data).file j = s.file j := by
  rw [(h.plain_inode mem).file_write live]
  apply File.ext
  · rfl
  · rfl
  · rfl
  · funext fb
    refine if_neg ?_
    intro eq
    have here : s.Live N (s.vnode sv).ino := SfsFs.live_of_mem mem
    exact h.ptr_ne_inode live here (eq.symm ▸ h.inode_ne_zero here) eq

/-- The rule of `sfs_sync_inode`. -/
lemma Core.wp_sfsSyncInode (h : Core s N) (mem : sv ∈ s.vnodes) {E : Nat → SfsFs → Prop} :
    Prog.wp (sfsSyncInode sv) (fun _ => Synced N s sv) E s := by
  rw [sfsSyncInode, Prog.wp_andThen_iff]
  refine Prog.wp_of_run rfl ?_
  split_ifs with dirty
  · have plain : Plain s N (s.vnode sv).ino := h.plain_inode mem
    have core : Core (s.write (s.vnode sv).ino (s.vnode sv).i.toBlock) N := h.write plain (by
      intro sw mem' same clean
      rw [h.table.inj mem' mem same, dirty] at clean
      cases clean)
    rw [Prog.wp_andThen_iff]
    refine Prog.wp_of_run (wblock_eq h.geom (h.vnode_used mem).1) ?_
    have read : (s.write (s.vnode sv).ino (s.vnode sv).i.toBlock).dev.sect (s.vnode sv).ino =
        (s.vnode sv).i.toBlock := Function.update_self ..
    have inode := core.table.inode_keep (f := fun v => { v with dirty := false }) mem rfl rfl
    refine Prog.wp_of_run rfl ⟨?_, ?_, rfl, rfl, rfl, ?_, ?_⟩
    · refine core.mapVnode (f := fun v => { v with dirty := false }) mem rfl rfl id rfl rfl rfl (fun _ => ?_)
      exact (congrArg SfsInode.ofBlock read).trans (SfsInode.ofBlock_toBlock _)
    · exact Frame.trans .write (.mapVnode (f := fun v => { v with dirty := false }) rfl rfl rfl rfl)
    · intro j live
      exact Eq.trans (congrFun (SfsFs.file_of_inode inode rfl) j) (h.file_write_inode mem live)
    · intro j l live
      exact Eq.trans (congrFun (congrFun (SfsFs.ptr_of_inode inode rfl) j) l) (plain.ptr_write live)
  · have same : ({ s.vnode sv with dirty := false } : SfsVnode) = s.vnode sv := by
      have clean : (s.vnode sv).dirty = false := by simpa using dirty
      rw [← clean]
    refine ⟨h, .refl s, ?_, rfl, rfl, .refl N s, fun _ _ _ => rfl⟩
    rw [same, Function.update_eq_self]

/-- The table after a vnode is dropped. -/
lemma Table.mem_dropVnode (h : Table s) : sw ∈ (s.dropVnode sv).vnodes ↔ sw ≠ sv ∧ sw ∈ s.vnodes :=
  h.nodup.mem_erase_iff

/-- The table stays in order. -/
lemma Table.dropVnode (h : Table s) : Table (s.dropVnode sv) where
  nodup := h.nodup.erase sv
  below mem := h.below (h.mem_dropVnode.1 mem).2
  inj mem mem' := h.inj (h.mem_dropVnode.1 mem).2 (h.mem_dropVnode.1 mem').2
  ops mem := h.ops (h.mem_dropVnode.1 mem).2
  refs mem := h.refs (h.mem_dropVnode.1 mem).2

/-- The loaded inodes after one is dropped. -/
lemma Table.loaded_dropVnode (h : Table s) (mem : sv ∈ s.vnodes) :
    (s.dropVnode sv).Loaded j ↔ s.Loaded j ∧ j ≠ (s.vnode sv).ino := by
  constructor
  · rintro ⟨sw, mem', rfl⟩
    obtain ⟨ne, mem'⟩ := h.mem_dropVnode.1 mem'
    exact ⟨⟨sw, mem', rfl⟩, fun same => ne (h.inj mem' mem same)⟩
  · rintro ⟨⟨sw, mem', rfl⟩, ne⟩
    refine ⟨sw, h.mem_dropVnode.2 ⟨?_, mem'⟩, rfl⟩
    rintro rfl
    exact ne rfl

/-- The inodes, when a vnode is removed whose inode is on the disk. -/
lemma Table.inode_dropVnode (h : Table s) (mem : sv ∈ s.vnodes)
    (clean : SfsInode.ofBlock (s.dev.sect (s.vnode sv).ino) = (s.vnode sv).i) : (s.dropVnode sv).inode = s.inode := by
  funext j
  by_cases loaded : (s.dropVnode sv).Loaded j
  · obtain ⟨sw, mem', rfl⟩ := loaded
    exact (h.dropVnode.inode_eq mem').trans (h.inode_eq (h.mem_dropVnode.1 mem').2).symm
  · rw [SfsFs.inode_of_not_loaded loaded]
    by_cases same : j = (s.vnode sv).ino
    · rw [same, h.inode_eq mem, ← clean]
      rfl
    · have loaded' : ¬ s.Loaded j := fun l => loaded ((h.loaded_dropVnode mem).2 ⟨l, same⟩)
      exact (SfsFs.inode_of_not_loaded loaded').symm

/-- The references after one is dropped. -/
lemma Table.refs_dropVnode (h : Table s) : (s.dropVnode sv).refs = Function.update s.refs sv 0 := by
  funext sw
  rw [SfsFs.refs]
  by_cases e : sw = sv
  · rw [e, Function.update_self, if_neg]
    intro mem
    exact (h.mem_dropVnode.1 mem).1 rfl
  · rw [Function.update_of_ne e, SfsFs.refs]
    by_cases mem : sw ∈ s.vnodes
    · rw [if_pos (h.mem_dropVnode.2 ⟨e, mem⟩), if_pos mem]
      rfl
    · rw [if_neg (fun m => mem (h.mem_dropVnode.1 m).2), if_neg mem]

/-- The opens after one is dropped. -/
lemma Table.opens_dropVnode (h : Table s) (closed : s.opens sv = 0) : (s.dropVnode sv).opens = s.opens := by
  funext sw
  rw [SfsFs.opens]
  by_cases e : sw = sv
  · rw [e, closed, if_neg]
    intro mem
    exact (h.mem_dropVnode.1 mem).1 rfl
  · rw [SfsFs.opens]
    by_cases mem : sw ∈ s.vnodes
    · rw [if_pos (h.mem_dropVnode.2 ⟨e, mem⟩), if_pos mem]
      rfl
    · rw [if_neg (fun m => mem (h.mem_dropVnode.1 m).2), if_neg mem]

/-- A reference to the vnode `sv` has been dropped. The files that are still in use have not changed. -/
structure Drops (N : Nat → Prop) (s : SfsFs) (sv : Nat) (s' : SfsFs) : Prop where
  core : Core s' N
  live : ∀ j, s'.Live N j → s.Live N j
  files : ∀ j, s'.Live N j → s'.file j = s.file j
  keeps : ∀ j l, s'.Live N j → s.ptr j l ≠ 0 → s'.ptr j l ≠ 0
  refs : s'.refs = Function.update s.refs sv (s.refs sv - 1)
  opens : s'.opens = s.opens
  inos : SameInos s s'

/-- A reference given up while others are left. -/
lemma Core.drops_decref (h : Core s N) (mem : sv ∈ s.vnodes) (more : 1 < (s.vnode sv).refcount) :
    Drops N s sv (s.mapVnode sv fun v => { v with refcount := v.refcount - 1 }) := by
  have inode : (s.mapVnode sv fun v => { v with refcount := v.refcount - 1 }).inode = s.inode :=
    h.table.inode_keep mem rfl rfl
  have own : (s.mapVnode sv fun v => { v with refcount := v.refcount - 1 }).vnode sv =
      { s.vnode sv with refcount := (s.vnode sv).refcount - 1 } := Function.update_self ..
  have other (sw : Nat) (ne : sw ≠ sv) : (s.mapVnode sv fun v => { v with refcount := v.refcount - 1 }).vnode sw =
      s.vnode sw := Function.update_of_ne ne ..
  refine ⟨?_, ?_, ?_, ?_, ?_, ?_, ?_⟩
  · exact h.mapVnode mem rfl rfl (fun _ => Nat.sub_pos_of_lt more) rfl rfl rfl (h.disk.inode mem)
  · intro j live
    exact (SfsFs.live_mapVnode rfl).1 live
  · intro j _
    rw [SfsFs.file_of_inode inode rfl]
  · intro j l _ used
    rw [SfsFs.ptr_of_inode inode rfl]
    exact used
  · funext sw
    by_cases e : sw = sv
    · rw [e, Function.update_self, SfsFs.refs_of_mem mem, SfsFs.refs_of_mem (s := s.mapVnode ..) mem, own]
    · rw [Function.update_of_ne e, SfsFs.refs, SfsFs.refs, other sw e]
      rfl
  · funext sw
    by_cases e : sw = sv
    · rw [e, SfsFs.opens_of_mem mem, SfsFs.opens_of_mem (s := s.mapVnode ..) mem, own]
    · rw [SfsFs.opens, SfsFs.opens, other sw e]
      rfl
  · exact ⟨Nat.le_refl _, fun sw _ => SfsFs.ino_mapVnode (f := fun v => { v with refcount := v.refcount - 1 }) rfl sw⟩

/-- The vnode of a file that stays is removed. -/
lemma Core.drops_unload (h : Core s N) (mem : sv ∈ s.vnodes) (clean : (s.vnode sv).dirty = false)
    (stays : (s.vnode sv).ino = 1 ∨ N (s.vnode sv).ino) (last : (s.vnode sv).refcount = 1)
    (closed : (s.vnode sv).opencount = 0) : Drops N s sv (s.dropVnode sv) := by
  have inode := h.table.inode_dropVnode mem (h.disk.inode mem clean)
  have live (j : Nat) : (s.dropVnode sv).Live N j ↔ s.Live N j := by
    rw [SfsFs.Live, SfsFs.Live, h.table.loaded_dropVnode mem]
    constructor
    · rintro (one | named | l)
      · exact .inl one
      · exact .inr (.inl named)
      · exact .inr (.inr l.1)
    · rintro (one | named | l)
      · exact .inl one
      · exact .inr (.inl named)
      · by_cases same : j = (s.vnode sv).ino
        · rw [same, ← or_assoc]
          exact .inl stays
        · exact .inr (.inr ⟨l, same⟩)
  refine ⟨?_, fun j hj => (live j).1 hj, ?_, ?_, ?_, ?_, ⟨Nat.le_refl _, fun _ _ => rfl⟩⟩
  · refine ⟨⟨h.geom.fits, h.geom.small, h.geom.dev⟩, h.table.dropVnode, ?_, ?_, ?_⟩
    · refine ⟨?_, h.disk.map, h.disk.super, h.disk.magic, h.disk.superclean⟩
      intro sw mem'
      exact h.disk.inode (h.table.mem_dropVnode.1 mem').2
    · intro j hj
      rw [inode]
      exact h.type ((live j).1 hj)
    · exact h.own_congr rfl live (fun j l _ => by rw [SfsFs.ptr_of_inode inode rfl]) rfl
  · intro j _
    rw [SfsFs.file_of_inode inode rfl]
  · intro j l _ used
    rw [SfsFs.ptr_of_inode inode rfl]
    exact used
  · rw [h.table.refs_dropVnode, SfsFs.refs_of_mem mem, last]
  · exact h.table.opens_dropVnode (by rw [SfsFs.opens_of_mem mem, closed])

/-- The vnode of a file without names and without blocks is removed, and its inode is freed. -/
lemma Core.drops_free (h : Core s N) (mem : sv ∈ s.vnodes) (clean : (s.vnode sv).dirty = false)
    (goes : ¬ ((s.vnode sv).ino = 1 ∨ N (s.vnode sv).ino)) (blank : ∀ l, s.ptr (s.vnode sv).ino l = 0)
    (last : (s.vnode sv).refcount = 1) (closed : (s.vnode sv).opencount = 0) :
    Drops N s sv ((s.unmark (s.vnode sv).ino).dropVnode sv) := by
  have table : Table (s.unmark (s.vnode sv).ino) := h.table.of_frame .unmark
  have inode : ((s.unmark (s.vnode sv).ino).dropVnode sv).inode = s.inode :=
    table.inode_dropVnode mem (h.disk.inode mem clean)
  have live (j : Nat) : ((s.unmark (s.vnode sv).ino).dropVnode sv).Live N j ↔ s.Live N j ∧ j ≠ (s.vnode sv).ino := by
    rw [SfsFs.Live, SfsFs.Live, table.loaded_dropVnode mem]
    constructor
    · rintro (one | named | l)
      · exact ⟨.inl one, fun e => goes (.inl (e ▸ one))⟩
      · exact ⟨.inr (.inl named), fun e => goes (.inr (e ▸ named))⟩
      · exact ⟨.inr (.inr l.1), l.2⟩
    · rintro ⟨one | named | l, ne⟩
      · exact .inl one
      · exact .inr (.inl named)
      · exact .inr (.inr ⟨l, ne⟩)
  refine ⟨?_, fun j hj => ((live j).1 hj).1, ?_, ?_, ?_, ?_, ⟨Nat.le_refl _, fun _ _ => rfl⟩⟩
  · refine ⟨⟨h.geom.fits, h.geom.small, h.geom.dev⟩, table.dropVnode, ?_, ?_, ?_⟩
    · refine ⟨?_, (fun no => by cases no), h.disk.super, h.disk.magic, h.disk.superclean⟩
      intro sw mem'
      exact h.disk.inode (table.mem_dropVnode.1 mem').2
    · intro j hj
      rw [inode]
      exact h.type ((live j).1 hj).1
    · exact h.own_drop (SfsFs.live_of_mem mem) rfl live (fun j l _ => by rw [SfsFs.ptr_of_inode inode rfl]) blank rfl
  · intro j _
    rw [SfsFs.file_of_inode inode rfl]
  · intro j l _ used
    rw [SfsFs.ptr_of_inode inode rfl]
    exact used
  · rw [table.refs_dropVnode, Frame.unmark.refs, SfsFs.refs_of_mem mem, last]
  · rw [table.opens_dropVnode, Frame.unmark.opens]
    rw [Frame.unmark.opens, SfsFs.opens_of_mem mem, closed]

/-- A frame before the reference is given up. -/
lemma Drops.after (fr : Frame s s') (d : Drops N s' sv s'') (files : ∀ j, s''.Live N j → s'.file j = s.file j)
    (keeps : ∀ j l, s''.Live N j → s.ptr j l ≠ 0 → s'.ptr j l ≠ 0) : Drops N s sv s'' where
  core := d.core
  live j live := fr.live_iff.1 (d.live j live)
  files j live := (d.files j live).trans (files j live)
  keeps j l live used := d.keeps j l live (keeps j l live used)
  refs := by rw [d.refs, fr.refs]
  opens := d.opens.trans fr.opens
  inos := fr.inos.trans d.inos

/-- The rule for a vnode that leaves the table. -/
lemma wp_sfsDropvnode (mem : sv ∈ s.vnodes) (last : (s.vnode sv).refcount = 1) (closed : (s.vnode sv).opencount = 0)
    {Q : Unit → SfsFs → Prop} {E : Nat → SfsFs → Prop} (post : Q () (s.dropVnode sv)) :
    Prog.wp (sfsDropvnode sv) Q E s := by
  rw [sfsDropvnode, Prog.wp_andThen_iff, Prog.wp_get_iff, Prog.wp_andThen_iff]
  refine Prog.wp.require mem ?_
  rw [Prog.wp_andThen_iff, Prog.wp_modify_iff, Prog.wp_andThen_iff]
  refine Prog.wp.require last ?_
  exact Prog.wp.require closed post

/-- The last reference to a vnode is dropped. -/
lemma Core.wp_sfsReclaim (h : Core s N) (mem : sv ∈ s.vnodes)
    (counted : (s.file (s.vnode sv).ino).links = 0 ↔ ¬ ((s.vnode sv).ino = 1 ∨ N (s.vnode sv).ino))
    (last : (s.vnode sv).refcount = 1) (closed : (s.vnode sv).opencount = 0) {E : Nat → SfsFs → Prop} :
    Prog.wp (sfsReclaim sv) (fun _ => Drops N s sv) E s := by
  have links : (s.vnode sv).i.linkcount = (s.file (s.vnode sv).ino).links :=
    congrArg SfsInode.linkcount (h.table.inode_eq mem).symm
  rw [sfsReclaim, Prog.wp_andThen_iff]
  refine Prog.wp_of_run rfl ?_
  rw [if_neg (fun ne => ne last), links]
  by_cases none : (s.file (s.vnode sv).ino).links = 0
  · -- the file goes away
    have goes := counted.1 none
    have ops := h.table.ops_file mem (fun one => goes (.inl one))
    rw [if_pos none, if_pos none, Prog.wp_andThen_iff, vopTruncate, Prog.wp_andThen_iff]
    refine Prog.wp_of_run rfl ?_
    rw [ops]
    refine (h.wp_sfsTruncate mem 0).mono ?_ (fun _ _ e => e)
    rintro _ s₁ ⟨only, blank⟩
    have mem₁ : sv ∈ s₁.vnodes := only.frame.vnodes.symm ▸ mem
    rw [Prog.wp_andThen_iff]
    refine (only.core.wp_sfsSyncInode mem₁).mono ?_ (fun _ _ e => e)
    intro _ s₂ synced
    have fr : Frame s s₂ := only.frame.trans synced.frame
    have mem₂ : sv ∈ s₂.vnodes := fr.vnodes.symm ▸ mem
    have ino : (s₂.vnode sv).ino = (s.vnode sv).ino := fr.ino sv
    have clean : (s₂.vnode sv).dirty = false := by rw [synced.vnode, Function.update_self]
    have drops := synced.core.drops_free mem₂ clean (ino.symm ▸ goes) (by
        intro l
        rw [ino, synced.ptr _ l (only.frame.live_iff.2 (SfsFs.live_of_mem mem)), blank rfl l])
      ((fr.refcount sv).trans last) ((fr.opencount sv).trans closed)
    rw [ino] at drops
    rw [Prog.wp_andThen_iff]
    refine wp_sfsBfree ?_ ?_ ?_
    · rw [fr.nblocks]
      exact (h.vnode_used mem).1.trans_le (le_bitmapsize _)
    · rw [← ino]
      exact (synced.core.vnode_used mem₂).2
    · refine wp_sfsDropvnode (s := s₂.unmark _) mem₂ ((fr.refcount sv).trans last) ((fr.opencount sv).trans closed) ?_
      have other (j : Nat) (live : ((s₂.unmark (s.vnode sv).ino).dropVnode sv).Live N j) :
          s₁.Live N j ∧ s.Live N j ∧ j ≠ (s.vnode sv).ino := by
        have live₂ := drops.live j live
        refine ⟨synced.frame.live_iff.1 live₂, fr.live_iff.1 live₂, ?_⟩
        rintro rfl
        obtain one | named | loaded := live
        · exact goes (.inl one)
        · exact goes (.inr named)
        · rw [(synced.core.table.of_frame .unmark).loaded_dropVnode mem₂] at loaded
          exact loaded.2 ino.symm
      refine drops.after fr ?_ ?_
      · intro j live
        obtain ⟨live₁, live₀, ne⟩ := other j live
        rw [synced.files j live₁, only.files j live₀ ne]
      · intro j l live used
        obtain ⟨live₁, live₀, ne⟩ := other j live
        rw [synced.ptr j l live₁]
        exact only.keeps j l live₀ ne used
  · have stays := not_not.1 (mt counted.2 none)
    rw [if_neg none, if_neg none, Prog.wp_andThen_iff, Prog.wp_pure_iff, Prog.wp_andThen_iff]
    refine (h.wp_sfsSyncInode mem).mono ?_ (fun _ _ e => e)
    intro _ s₁ synced
    have fr := synced.frame
    have mem₁ : sv ∈ s₁.vnodes := fr.vnodes.symm ▸ mem
    have clean : (s₁.vnode sv).dirty = false := by rw [synced.vnode, Function.update_self]
    have drops := synced.core.drops_unload mem₁ clean ((fr.ino sv).symm ▸ stays) ((fr.refcount sv).trans last)
      ((fr.opencount sv).trans closed)
    rw [Prog.wp_andThen_iff, Prog.wp_pure_iff]
    refine wp_sfsDropvnode mem₁ ((fr.refcount sv).trans last) ((fr.opencount sv).trans closed) ?_
    refine drops.after fr ?_ ?_
    · intro j live
      exact synced.files j (fr.live_iff.1 (drops.live j live))
    · intro j l live used
      rw [synced.ptr j l (fr.live_iff.1 (drops.live j live))]
      exact used

/-- A reference to a vnode is dropped. -/
lemma Core.wp_vopDecref (h : Core s N) (mem : sv ∈ s.vnodes)
    (counted : (s.file (s.vnode sv).ino).links = 0 ↔ ¬ ((s.vnode sv).ino = 1 ∨ N (s.vnode sv).ino))
    (held : s.opens sv < s.refs sv) {E : Nat → SfsFs → Prop} :
    Prog.wp (vopDecref sv) (fun _ => Drops N s sv) E s := by
  rw [SfsFs.opens_of_mem mem, SfsFs.refs_of_mem mem] at held
  rw [vopDecref, Prog.wp_andThen_iff]
  refine Prog.wp_of_run rfl ?_
  rw [Prog.wp_andThen_iff]
  refine Prog.wp.require (h.table.refs mem) ?_
  split_ifs with more
  · exact Prog.wp_of_run rfl (h.drops_decref mem more)
  · rw [Prog.wp_andThen_iff, Prog.wp_attempt_iff]
    exact h.wp_sfsReclaim mem counted (by omega) (by omega)

end

end PDS.Sfs
