import PDS.Lib.Owned
import PDS.Sfs.Mount

/-!
# What a volume consists of

The blocks of a volume belong to somebody: to the volume itself, to an inode, or to the block map of an inode.
`Core s N` says that the free map marks exactly the blocks with an owner, that the table of vnodes is in order,
and that what is not marked dirty is on the disk. The inodes in use are the root directory, those that have a
name (`N`) and those that are loaded.

`SfsFs.file` is what the file system says about an inode: its kind, its link count, its size and the contents of
its blocks. A block that is missing reads as zeros, so that the allocation of a block does not change the file.
-/

namespace PDS.Sfs
open Kern Word

/-- An inode is loaded. -/
def SfsFs.Loaded (s : SfsFs) (i : Nat) : Prop := ∃ sv ∈ s.vnodes, (s.vnode sv).ino = i

/-- An inode is in use. -/
def SfsFs.Live (s : SfsFs) (N : Nat → Prop) (i : Nat) : Prop := i = 1 ∨ N i ∨ s.Loaded i

/-- The inode with a number: in memory if it is loaded, else on the disk. -/
def SfsFs.inode (s : SfsFs) (i : Nat) : SfsInode :=
  match s.vnodes.find? fun sv => (s.vnode sv).ino = i with
  | some sv => (s.vnode sv).i
  | none => SfsInode.ofBlock (s.dev.sect i)

/-- The block numbers an inode holds: the direct blocks (`0` to `14`), the indirect block (`15`), and the entries of
the indirect block (from `16` on). -/
def ptrOf (sect : Nat → Block) (i : SfsInode) (k : Nat) : Nat :=
  if h : k < 15 then (i.direct ⟨k, h⟩).toNat
  else if k = 15 then i.indirect.toNat
  else if k < 144 ∧ i.indirect ≠ 0 then (sect i.indirect.toNat).word (k - 16)
  else 0

/-- The block numbers of the inode with a number. -/
def SfsFs.ptr (s : SfsFs) (i k : Nat) : Nat := ptrOf s.dev.sect (s.inode i) k

/-- Where an inode holds the number of a block of the file. -/
def dataSlot (fileblock : Nat) : Nat := if fileblock < 15 then fileblock else fileblock + 1

/-- A file: what the file system says about an inode. -/
@[ext] structure File where
  type : UInt16
  links : UInt16
  size : Nat
  data : Nat → Block

/-- The file with an inode number. -/
def SfsFs.file (s : SfsFs) (i : Nat) : File where
  type := (s.inode i).type
  links := (s.inode i).linkcount
  size := (s.inode i).size.toNat
  data fb := if s.ptr i (dataSlot fb) = 0 then Block.zeros else s.dev.sect (s.ptr i (dataSlot fb))

/-- Who a block belongs to. -/
inductive Owner where
  /-- the superblock, the free map, or a bit past the end of the disk -/
  | volume (b : Nat)
  | inode (i : Nat)
  /-- the block number `k` of an inode -/
  | block (i k : Nat)
deriving DecidableEq, Repr

/-- The blocks of the superblock, the free map and past the end of the disk. -/
def volumeBlock (nblocks b : Nat) : Prop :=
  b = 0 ∨ (2 ≤ b ∧ b < 2 + bitblocks nblocks) ∨ (nblocks ≤ b ∧ b < bitmapsize nblocks)

/-- The owner of a block. -/
def SfsFs.Owns (s : SfsFs) (N : Nat → Prop) : Owner → Nat → Prop
  | .volume c, b => c = b ∧ volumeBlock s.nblocks b
  | .inode i, b => i = b ∧ s.Live N i
  | .block i k, b => s.Live N i ∧ k < 144 ∧ s.ptr i k = b ∧ b ≠ 0

/-- The free map marks a block as in use. -/
def SfsFs.Marked (s : SfsFs) (b : Nat) : Prop := b < bitmapsize s.nblocks ∧ s.freemap b = true

/-- The volume fits on the disk, and block numbers times the block size have `32` bits. -/
structure Geom (s : SfsFs) : Prop where
  fits : 2 + bitblocks s.nblocks ≤ s.nblocks
  small : s.nblocks ≤ 2 ^ 23
  dev : s.dev.blocks = s.nblocks

/-- The table of vnodes is in order. -/
structure Table (s : SfsFs) : Prop where
  nodup : s.vnodes.Nodup
  below : ∀ {sv}, sv ∈ s.vnodes → sv < s.next
  inj : ∀ {sv sw}, sv ∈ s.vnodes → sw ∈ s.vnodes → (s.vnode sv).ino = (s.vnode sw).ino → sv = sw
  ops : ∀ {sv}, sv ∈ s.vnodes → (s.vnode sv).ops = if (s.vnode sv).ino = 1 then .dir else .file
  refs : ∀ {sv}, sv ∈ s.vnodes → 0 < (s.vnode sv).refcount

/-- What is not dirty is on the disk. -/
structure OnDisk (s : SfsFs) : Prop where
  inode : ∀ {sv}, sv ∈ s.vnodes → (s.vnode sv).dirty = false →
    SfsInode.ofBlock (s.dev.sect (s.vnode sv).ino) = (s.vnode sv).i
  map : s.freemapdirty = false → ∀ j < bitblocks s.nblocks, s.dev.sect (2 + j) = mapBlock s.freemap j
  super : (s.dev.sect 0).store 39 [0] = s.super
  magic : (s.dev.sect 0).word 0 = sfsMagic
  superclean : s.superdirty = false

/-- The invariant of a volume whose inodes `N` have a name. -/
structure Core (s : SfsFs) (N : Nat → Prop) : Prop where
  geom : Geom s
  table : Table s
  disk : OnDisk s
  type : ∀ {i}, s.Live N i → (s.inode i).type = if i = 1 then typeDir else typeFile
  own : Owned (s.Owns N) s.Marked

/-- The table of vnodes is in order, and the free map marks the blocks that belong to somebody. -/
structure Sound (s : SfsFs) (N : Nat → Prop) : Prop where
  table : Table s
  own : Owned (s.Owns N) s.Marked

/-- The invariant contains that marked blocks have one owner each. -/
lemma Core.sound {s : SfsFs} {N : Nat → Prop} (h : Core s N) : Sound s N := ⟨h.table, h.own⟩

/-- A vnode changes. -/
def SfsFs.mapVnode (s : SfsFs) (sv : Nat) (f : SfsVnode → SfsVnode) : SfsFs :=
  { s with vnode := Function.update s.vnode sv (f (s.vnode sv)) }

/-- A block is written. -/
def SfsFs.write (s : SfsFs) (b : Nat) (data : Block) : SfsFs :=
  { s with dev := { s.dev with sect := Function.update s.dev.sect b data } }

/-- A block is marked. -/
def SfsFs.mark (s : SfsFs) (b : Nat) : SfsFs :=
  { s with freemap := Function.update s.freemap b true, freemapdirty := true }

/-- A block is freed. -/
def SfsFs.unmark (s : SfsFs) (b : Nat) : SfsFs :=
  { s with freemap := Function.update s.freemap b false, freemapdirty := true }

section Views

variable {s : SfsFs} {N : Nat → Prop} {sv i j k b : Nat} {f : SfsVnode → SfsVnode} {data : Block}

/-- A block write keeps the volume's size. -/
@[simp] lemma SfsFs.nblocks_write : (s.write b data).nblocks = s.nblocks := rfl

/-- Marking a block keeps the volume's size. -/
@[simp] lemma SfsFs.nblocks_mark : (s.mark b).nblocks = s.nblocks := rfl

/-- The inode of a loaded vnode. -/
lemma Table.inode_eq (h : Table s) (mem : sv ∈ s.vnodes) : s.inode (s.vnode sv).ino = (s.vnode sv).i := by
  rw [SfsFs.inode]
  cases found : s.vnodes.find? fun sw => (s.vnode sw).ino = (s.vnode sv).ino with
  | none =>
    have := List.find?_eq_none.1 found sv mem
    simp at this
  | some sw =>
    have same : sw = sv := h.inj (List.mem_of_find?_eq_some found) mem (by simpa using List.find?_some found)
    rw [same]

/-- An inode that is not loaded. -/
lemma SfsFs.inode_of_not_loaded (h : ¬ s.Loaded i) : s.inode i = SfsInode.ofBlock (s.dev.sect i) := by
  have none : s.vnodes.find? (fun sv => (s.vnode sv).ino = i) = none := by
    rw [List.find?_eq_none]
    intro sv mem eq
    exact h ⟨sv, mem, by simpa using eq⟩
  rw [SfsFs.inode, none]

/-- The inode of a vnode in the table is loaded. -/
lemma SfsFs.loaded_of_mem (mem : sv ∈ s.vnodes) : s.Loaded (s.vnode sv).ino := ⟨sv, mem, rfl⟩

/-- The inode of a vnode in the table is live. -/
lemma SfsFs.live_of_mem (mem : sv ∈ s.vnodes) : s.Live N (s.vnode sv).ino := .inr (.inr ⟨sv, mem, rfl⟩)

/-- Inode numbers after a change to a vnode. -/
lemma SfsFs.ino_mapVnode (ino : (f (s.vnode sv)).ino = (s.vnode sv).ino) (sw : Nat) :
    ((s.mapVnode sv f).vnode sw).ino = (s.vnode sw).ino := by
  by_cases e : sw = sv
  · subst e
    rw [SfsFs.mapVnode]
    dsimp only
    rw [Function.update_self, ino]
  · rw [SfsFs.mapVnode]
    dsimp only
    rw [Function.update_of_ne e]

/-- Loaded inodes after a change to a vnode. -/
lemma SfsFs.loaded_mapVnode (ino : (f (s.vnode sv)).ino = (s.vnode sv).ino) :
    (s.mapVnode sv f).Loaded i ↔ s.Loaded i := by
  simp only [SfsFs.Loaded, SfsFs.ino_mapVnode ino]
  rfl

/-- Live inodes after a change to a vnode. -/
lemma SfsFs.live_mapVnode (ino : (f (s.vnode sv)).ino = (s.vnode sv).ino) :
    (s.mapVnode sv f).Live N i ↔ s.Live N i := by
  rw [SfsFs.Live, SfsFs.Live, SfsFs.loaded_mapVnode ino]

/-- The inode of the vnode that changes, and all others. -/
lemma Table.inode_mapVnode (h : Table s) (mem : sv ∈ s.vnodes) (ino : (f (s.vnode sv)).ino = (s.vnode sv).ino) :
    (s.mapVnode sv f).inode = Function.update s.inode (s.vnode sv).ino (f (s.vnode sv)).i := by
  funext i
  have find : (s.mapVnode sv f).vnodes.find? (fun sw => ((s.mapVnode sv f).vnode sw).ino = i) =
      s.vnodes.find? (fun sw => (s.vnode sw).ino = i) := by
    simp only [SfsFs.ino_mapVnode ino]
    rfl
  by_cases e : i = (s.vnode sv).ino
  · subst e
    rw [Function.update_self, SfsFs.inode, find]
    cases found : s.vnodes.find? fun sw => (s.vnode sw).ino = (s.vnode sv).ino with
    | none =>
      have := List.find?_eq_none.1 found sv mem
      simp at this
    | some sw =>
      have same : sw = sv := h.inj (List.mem_of_find?_eq_some found) mem (by simpa using List.find?_some found)
      rw [same]
      dsimp only [SfsFs.mapVnode]
      rw [Function.update_self]
  · rw [Function.update_of_ne e, SfsFs.inode, find, SfsFs.inode]
    cases found : s.vnodes.find? fun sw => (s.vnode sw).ino = i with
    | none => rfl
    | some sw =>
      have ne : sw ≠ sv := by
        rintro rfl
        exact e (Eq.symm (by simpa using List.find?_some found))
      dsimp only [SfsFs.mapVnode]
      rw [Function.update_of_ne ne]

/-- A change to a vnode's inode keeps the table in order. -/
lemma Table.mapVnode (h : Table s) (ino : (f (s.vnode sv)).ino = (s.vnode sv).ino)
    (ops : (f (s.vnode sv)).ops = (s.vnode sv).ops) (refs : 0 < (s.vnode sv).refcount → 0 < (f (s.vnode sv)).refcount) :
    Table (s.mapVnode sv f) where
  nodup := h.nodup
  below := h.below
  inj := by
    intro sv' sw mem mem' eq
    rw [SfsFs.ino_mapVnode ino, SfsFs.ino_mapVnode ino] at eq
    exact h.inj mem mem' eq
  ops := by
    intro sw mem
    rw [SfsFs.ino_mapVnode ino, ← h.ops mem]
    by_cases e : sw = sv
    · subst e
      dsimp only [SfsFs.mapVnode]
      rw [Function.update_self, ops]
    · dsimp only [SfsFs.mapVnode]
      rw [Function.update_of_ne e]
  refs := by
    intro sw mem
    by_cases e : sw = sv
    · subst e
      dsimp only [SfsFs.mapVnode]
      rw [Function.update_self]
      exact refs (h.refs mem)
    · dsimp only [SfsFs.mapVnode]
      rw [Function.update_of_ne e]
      exact h.refs mem

/-- An inode changes when its block is written, unless it is loaded. -/
lemma SfsFs.inode_write (h : i ≠ b ∨ s.Loaded i) : (s.write b data).inode i = s.inode i := by
  by_cases loaded : s.Loaded i
  · obtain ⟨sv, mem, eq⟩ := loaded
    rw [SfsFs.inode, SfsFs.inode]
    cases found : s.vnodes.find? fun sw => (s.vnode sw).ino = i with
    | none =>
      have := List.find?_eq_none.1 found sv mem
      simp [eq] at this
    | some sw =>
      have found' : (s.write b data).vnodes.find? (fun sw => ((s.write b data).vnode sw).ino = i) = some sw := found
      rw [found']
      rfl
  · have ne : i ≠ b := h.resolve_right loaded
    have loaded' : ¬ (s.write b data).Loaded i := loaded
    rw [SfsFs.inode_of_not_loaded loaded', SfsFs.inode_of_not_loaded loaded]
    dsimp only [SfsFs.write]
    rw [Function.update_of_ne ne]

/-- Pointers depend on the inode and its indirect block. -/
lemma ptrOf_congr {sect sect' : Nat → Block} {i : SfsInode}
    (h : i.indirect ≠ 0 → sect' i.indirect.toNat = sect i.indirect.toNat) :
    ptrOf sect' i k = ptrOf sect i k := by
  rw [ptrOf, ptrOf]
  split_ifs with h₁ h₂ h₃
  · rfl
  · rfl
  · rw [h h₃.2]
  · rfl

/-- Slot 15 is the indirect block. -/
lemma ptrOf_indirect (sect : Nat → Block) (i : SfsInode) : ptrOf sect i 15 = i.indirect.toNat := by
  rw [ptrOf, dif_neg (by decide), if_pos rfl]

/-- The first 15 slots are direct. -/
lemma ptrOf_of_lt (sect : Nat → Block) (i : SfsInode) (h : k < 15) : ptrOf sect i k = (i.direct ⟨k, h⟩).toNat := by
  rw [ptrOf, dif_pos h]

/-- An entry of the indirect block. -/
lemma ptrOf_of_gt (sect : Nat → Block) (i : SfsInode) (h : 15 < k) :
    ptrOf sect i k = if k < 144 ∧ i.indirect ≠ 0 then (sect i.indirect.toNat).word (k - 16) else 0 := by
  rw [ptrOf, dif_neg (by omega), if_neg (by omega)]

/-- The block numbers of an inode that is not touched, when a block is written that is not its indirect block. -/
lemma SfsFs.ptr_write (h : i ≠ b ∨ s.Loaded i) (ind : s.ptr i 15 = b → b = 0) :
    (s.write b data).ptr i k = s.ptr i k := by
  rw [SfsFs.ptr, SfsFs.inode_write h, SfsFs.ptr]
  apply ptrOf_congr
  intro ne
  have other : (s.inode i).indirect.toNat ≠ b := by
    intro eq
    have zero := ind ((ptrOf_indirect _ _).trans eq)
    exact ne (UInt32.toNat_inj.1 (by rw [eq, zero]; rfl))
  dsimp only [SfsFs.write]
  rw [Function.update_of_ne other]

end Views

section Owners

variable {s : SfsFs} {N : Nat → Prop} {sv i j k l b : Nat}

/-- There are 144 slots. -/
lemma SfsFs.ptr_of_le (h : 144 ≤ k) : s.ptr i k = 0 := by
  rw [SfsFs.ptr, ptrOf, dif_neg (by omega), if_neg (by omega), if_neg (by omega)]

/-- A pointer that is set is in one of them. -/
lemma SfsFs.lt_of_ptr (ne : s.ptr i k ≠ 0) : k < 144 := by
  by_contra le
  exact ne (SfsFs.ptr_of_le (by omega))

/-- A live inode owns its block. -/
lemma SfsFs.owns_inode (live : s.Live N i) : s.Owns N (.inode i) i := ⟨rfl, live⟩

/-- A live inode owns the blocks it points to. -/
lemma SfsFs.owns_block (live : s.Live N i) (ne : s.ptr i k ≠ 0) : s.Owns N (.block i k) (s.ptr i k) :=
  ⟨live, SfsFs.lt_of_ptr ne, rfl, ne⟩

/-- Two inodes in use do not share a block. -/
lemma Core.ptr_inj (h : Core s N) (hi : s.Live N i) (hj : s.Live N j) (eq : s.ptr i k = s.ptr j l)
    (ne : s.ptr i k ≠ 0) : i = j ∧ k = l := by
  have same := h.own.inj (SfsFs.owns_block hi ne) (eq ▸ SfsFs.owns_block hj (eq ▸ ne))
  exact ⟨(Owner.block.inj same).1, (Owner.block.inj same).2⟩

/-- The block of an inode in use is no block of a file. -/
lemma Core.ptr_ne_inode (h : Core s N) (hi : s.Live N i) (hj : s.Live N j) (ne : s.ptr i k ≠ 0) : s.ptr i k ≠ j := by
  intro eq
  have same := h.own.inj (SfsFs.owns_block hi ne) (eq ▸ SfsFs.owns_inode hj)
  cases same

/-- No inode lies in the volume's own blocks. -/
lemma Sound.not_volumeBlock_inode (h : Sound s N) (hi : s.Live N i) : ¬ volumeBlock s.nblocks i := by
  intro vol
  have own : s.Owns N (.volume i) i := ⟨rfl, vol⟩
  have same := h.own.inj (SfsFs.owns_inode hi) own
  cases same

/-- Nor in a state with the invariant. -/
lemma Core.not_volumeBlock_inode (h : Core s N) (hi : s.Live N i) : ¬ volumeBlock s.nblocks i :=
  h.sound.not_volumeBlock_inode hi

/-- No pointer leads into the volume's own blocks. -/
lemma Core.not_volumeBlock_ptr (h : Core s N) (hi : s.Live N i) (ne : s.ptr i k ≠ 0) :
    ¬ volumeBlock s.nblocks (s.ptr i k) := by
  intro vol
  have own : s.Owns N (.volume (s.ptr i k)) (s.ptr i k) := ⟨rfl, vol⟩
  have same := h.own.inj (SfsFs.owns_block hi ne) own
  cases same

/-- A marked block lies in the volume. -/
lemma SfsFs.lt_of_marked (marked : s.Marked b) (other : ¬ volumeBlock s.nblocks b) : b < s.nblocks := by
  by_contra le
  exact other (.inr (.inr ⟨by omega, marked.1⟩))

/-- Pointers lie in the volume. -/
lemma Core.ptr_lt (h : Core s N) (hi : s.Live N i) (k : Nat) : s.ptr i k < s.nblocks := by
  by_cases ne : s.ptr i k = 0
  · rw [ne]
    have := h.geom.fits
    omega
  · exact SfsFs.lt_of_marked (h.own.sound (SfsFs.owns_block hi ne)) (h.not_volumeBlock_ptr hi ne)

/-- A block that is pointed to is marked. -/
lemma Sound.ptr_marked (h : Sound s N) (hi : s.Live N i) (ne : s.ptr i k ≠ 0) : s.freemap (s.ptr i k) = true :=
  (h.own.sound (SfsFs.owns_block hi ne)).2

/-- Likewise in a state with the invariant. -/
lemma Core.ptr_marked (h : Core s N) (hi : s.Live N i) (ne : s.ptr i k ≠ 0) : s.freemap (s.ptr i k) = true :=
  h.sound.ptr_marked hi ne

/-- Inodes lie in the volume. -/
lemma Sound.inode_lt (h : Sound s N) (hi : s.Live N i) : i < s.nblocks :=
  SfsFs.lt_of_marked (h.own.sound (SfsFs.owns_inode hi)) (h.not_volumeBlock_inode hi)

/-- Likewise in a state with the invariant. -/
lemma Core.inode_lt (h : Core s N) (hi : s.Live N i) : i < s.nblocks :=
  h.sound.inode_lt hi

/-- The block of an inode is marked. -/
lemma Sound.inode_marked (h : Sound s N) (hi : s.Live N i) : s.freemap i = true :=
  (h.own.sound (SfsFs.owns_inode hi)).2

/-- Likewise in a state with the invariant. -/
lemma Core.inode_marked (h : Core s N) (hi : s.Live N i) : s.freemap i = true :=
  h.sound.inode_marked hi

/-- Inode numbers are not 0. -/
lemma Core.inode_ne_zero (h : Core s N) (hi : s.Live N i) : i ≠ 0 := by
  rintro rfl
  exact h.not_volumeBlock_inode hi (.inl rfl)

/-- Inodes other than the root are files. -/
lemma Table.ops_file (h : Table s) (mem : sv ∈ s.vnodes) (ne : (s.vnode sv).ino ≠ 1) : (s.vnode sv).ops = .file := by
  rw [h.ops mem, if_neg ne]

/-- A file is not the root. -/
lemma Table.ne_root (h : Table s) (mem : sv ∈ s.vnodes) (file : (s.vnode sv).ops = .file) : (s.vnode sv).ino ≠ 1 := by
  intro root
  rw [h.ops mem, if_pos root] at file
  cases file

/-- The root is no regular file. -/
lemma Core.ne_root (h : Core s N) (live : s.Live N i) (regular : (s.file i).type = typeFile) : i ≠ 1 := by
  intro one
  have type : (s.file i).type = _ := h.type live
  rw [regular, if_pos one] at type
  cases type

/-- A block that is not marked belongs to nobody. -/
lemma Sound.not_owns (h : Sound s N) (free : s.freemap b = false) (o : Owner) : ¬ s.Owns N o b := by
  intro own
  have marked := (h.own.sound own).2
  rw [free] at marked
  cases marked

/-- A free block has no owner. -/
lemma Core.not_owns (h : Core s N) (free : s.freemap b = false) (o : Owner) : ¬ s.Owns N o b :=
  h.sound.not_owns free o

/-- A free block is none of the volume's own. -/
lemma Core.free_not_volumeBlock (h : Core s N) (free : s.freemap b = false) : ¬ volumeBlock s.nblocks b :=
  fun vol => h.not_owns free (.volume b) ⟨rfl, vol⟩

/-- The superblock is never free. -/
lemma Sound.free_ne_zero (h : Sound s N) (free : s.freemap b = false) : b ≠ 0 := by
  rintro rfl
  exact h.not_owns free (.volume 0) ⟨rfl, .inl rfl⟩

/-- Likewise in a state with the invariant. -/
lemma Core.free_ne_zero (h : Core s N) (free : s.freemap b = false) : b ≠ 0 :=
  h.sound.free_ne_zero free

/-- A free block is no live inode. -/
lemma Core.free_not_live (h : Core s N) (free : s.freemap b = false) : ¬ s.Live N b :=
  fun live => h.not_owns free (.inode b) ⟨rfl, live⟩

/-- Nothing points to a free block. -/
lemma Core.free_ne_ptr (h : Core s N) (free : s.freemap b = false) (hi : s.Live N i) : s.ptr i k ≠ b := by
  rintro rfl
  by_cases ne : s.ptr i k = 0
  · exact h.free_ne_zero free ne
  · have marked := h.ptr_marked hi ne
    rw [free] at marked
    cases marked

end Owners

section Ownership

variable {s s' : SfsFs} {N : Nat → Prop} {i k b : Nat}

/-- Nothing changes. -/
lemma Core.own_congr (h : Core s N) (size : s'.nblocks = s.nblocks) (live : ∀ j, s'.Live N j ↔ s.Live N j)
    (ptr : ∀ j l, s.Live N j → s'.ptr j l = s.ptr j l) (map : s'.freemap = s.freemap) :
    Owned (s'.Owns N) s'.Marked := by
  refine h.own.congr ?_ ?_
  · intro o x
    cases o with
    | volume c => rw [SfsFs.Owns, SfsFs.Owns, size]
    | inode j => rw [SfsFs.Owns, SfsFs.Owns, live]
    | block j l =>
      rw [SfsFs.Owns, SfsFs.Owns, live]
      refine and_congr_right (fun hj => ?_)
      rw [ptr j l hj]
  · intro x
    rw [SfsFs.Marked, SfsFs.Marked, size, map]

/-- A free block becomes the block number `k` of an inode. -/
lemma Core.own_block (h : Core s N) (free : s.freemap b = false) (lt : b < s.nblocks) (hi : s.Live N i) (slot : k < 144)
    (idle : s.ptr i k = 0) (size : s'.nblocks = s.nblocks) (live : ∀ j, s'.Live N j ↔ s.Live N j)
    (ptr : ∀ j l, s.Live N j → s'.ptr j l = if j = i ∧ l = k then b else s.ptr j l)
    (map : s'.freemap = Function.update s.freemap b true) : Owned (s'.Owns N) s'.Marked := by
  have ne := h.free_ne_zero free
  refine h.own.add (c := .block i k) (a := b) (fun marked => ?_) (fun x own => ?_) ?_ ?_
  · rw [SfsFs.Marked, free] at marked
    cases marked.2
  · exact own.2.2.2 (own.2.2.1.symm.trans idle)
  · intro o x
    cases o with
    | volume c => simp [SfsFs.Owns, size]
    | inode j => simp [SfsFs.Owns, live]
    | block j l =>
      rw [SfsFs.Owns, SfsFs.Owns, live, Owner.block.injEq]
      by_cases same : j = i ∧ l = k
      · obtain ⟨rfl, rfl⟩ := same
        rw [ptr j l hi, if_pos ⟨rfl, rfl⟩, idle]
        constructor
        · rintro ⟨-, -, rfl, -⟩
          exact .inr ⟨⟨rfl, rfl⟩, rfl⟩
        · rintro (⟨-, -, rfl, ne'⟩ | ⟨-, rfl⟩)
          · exact absurd rfl ne'
          · exact ⟨hi, slot, rfl, ne⟩
      · rw [or_iff_left (fun own => same own.1)]
        refine and_congr_right (fun hj => ?_)
        rw [ptr j l hj, if_neg same]
  · intro x
    have inside := le_bitmapsize s.nblocks
    rw [SfsFs.Marked, SfsFs.Marked, size, map]
    by_cases same : x = b
    · subst same
      rw [Function.update_self]
      exact iff_of_true ⟨by omega, rfl⟩ (.inr rfl)
    · rw [Function.update_of_ne same, or_iff_left same]

/-- An inode gives up the blocks with the numbers in `cut`. -/
lemma Core.own_cut (h : Core s N) (hi : s.Live N i) (cut : Nat → Prop) [DecidablePred cut] (size : s'.nblocks = s.nblocks)
    (live : ∀ j, s'.Live N j ↔ s.Live N j)
    (ptr : ∀ j l, s.Live N j → s'.ptr j l = if j = i ∧ cut l then 0 else s.ptr j l)
    (map : ∀ x, s'.freemap x = true ↔ s.freemap x = true ∧ ∀ l, cut l → s.ptr i l ≠ 0 → s.ptr i l ≠ x) :
    Owned (s'.Owns N) s'.Marked := by
  refine h.own.restrict (fun o => ∀ l, cut l → o ≠ .block i l) ?_ ?_
  · intro o x
    cases o with
    | volume c => simp [SfsFs.Owns, size]
    | inode j => simp [SfsFs.Owns, live]
    | block j l =>
      rw [SfsFs.Owns, SfsFs.Owns, live]
      by_cases same : j = i ∧ cut l
      · refine iff_of_false ?_ ?_
        · rintro ⟨hj, -, eq, ne⟩
          rw [ptr j l hj, if_pos same] at eq
          exact ne eq.symm
        · rintro ⟨-, keeps⟩
          exact keeps l same.2 (by rw [same.1])
      · have keeps : ∀ l', cut l' → Owner.block j l ≠ .block i l' := by
          intro l' hl eq
          rw [Owner.block.injEq] at eq
          exact same ⟨eq.1, eq.2 ▸ hl⟩
        rw [and_iff_left keeps]
        refine and_congr_right (fun hj => ?_)
        rw [ptr j l hj, if_neg same]
  · intro x
    rw [SfsFs.Marked, SfsFs.Marked, size, map, and_assoc]
    refine and_congr_right (fun inside => and_congr_right (fun marked => ?_))
    constructor
    · rintro keeps o own l hl rfl
      exact keeps l hl (own.2.2.1 ▸ own.2.2.2) own.2.2.1
    · intro keeps l hl ne eq
      exact keeps (.block i l) (eq ▸ SfsFs.owns_block hi ne) l hl rfl

/-- A free block becomes an inode, which holds no blocks. -/
lemma Core.own_inode (h : Core s N) (free : s.freemap b = false) (lt : b < s.nblocks) (size : s'.nblocks = s.nblocks)
    (live : ∀ j, s'.Live N j ↔ s.Live N j ∨ j = b) (ptr : ∀ j l, s.Live N j → s'.ptr j l = s.ptr j l)
    (blank : ∀ l, s'.ptr b l = 0) (map : s'.freemap = Function.update s.freemap b true) :
    Owned (s'.Owns N) s'.Marked := by
  have idle := h.free_not_live free
  refine h.own.add (c := .inode b) (a := b) (fun marked => ?_) (fun x own => idle own.2) ?_ ?_
  · rw [SfsFs.Marked, free] at marked
    cases marked.2
  · intro o x
    cases o with
    | volume c => simp [SfsFs.Owns, size]
    | inode j =>
      rw [SfsFs.Owns, SfsFs.Owns, live, Owner.inode.injEq, and_or_left]
      refine or_congr_right ⟨?_, ?_⟩
      · rintro ⟨rfl, eq⟩
        exact ⟨eq, eq⟩
      · rintro ⟨rfl, rfl⟩
        exact ⟨rfl, rfl⟩
    | block j l =>
      constructor
      · rintro ⟨hj, slot, eq, ne⟩
        cases (live j).1 hj with
        | inl hj => exact .inl ⟨hj, slot, ptr j l hj ▸ eq, ne⟩
        | inr same => exact absurd (eq.symm.trans (same ▸ blank l)) ne
      · rintro (⟨hj, slot, eq, ne⟩ | own)
        · exact ⟨(live j).2 (.inl hj), slot, (ptr j l hj).trans eq, ne⟩
        · cases own.1
  · intro x
    have inside := le_bitmapsize s.nblocks
    rw [SfsFs.Marked, SfsFs.Marked, size, map]
    by_cases same : x = b
    · subst same
      rw [Function.update_self]
      exact iff_of_true ⟨by omega, rfl⟩ (.inr rfl)
    · rw [Function.update_of_ne same, or_iff_left same]

/-- An inode without blocks is given up. -/
lemma Core.own_drop (h : Core s N) (hi : s.Live N i) (size : s'.nblocks = s.nblocks)
    (live : ∀ j, s'.Live N j ↔ s.Live N j ∧ j ≠ i) (ptr : ∀ j l, s'.Live N j → s'.ptr j l = s.ptr j l)
    (blank : ∀ l, s.ptr i l = 0) (map : s'.freemap = Function.update s.freemap i false) :
    Owned (s'.Owns N) s'.Marked := by
  refine h.own.drop (c := .inode i) (a := i) (SfsFs.owns_inode hi) ?_ ?_
  · intro o x
    cases o with
    | volume c => simp [SfsFs.Owns, size]
    | inode j => simp [SfsFs.Owns, live, and_assoc]
    | block j l =>
      constructor
      · rintro ⟨hj, slot, eq, ne⟩
        exact ⟨⟨((live j).1 hj).1, slot, ptr j l hj ▸ eq, ne⟩, nofun⟩
      · rintro ⟨⟨hj, slot, eq, ne⟩, -⟩
        have other : j ≠ i := by
          rintro rfl
          exact ne (eq.symm.trans (blank l))
        have hj' := (live j).2 ⟨hj, other⟩
        exact ⟨hj', slot, (ptr j l hj').trans eq, ne⟩
  · intro x
    rw [SfsFs.Marked, SfsFs.Marked, size, map]
    by_cases same : x = i
    · subst same
      rw [Function.update_self]
      exact iff_of_false (fun m => by cases m.2) (fun m => m.2 rfl)
    · rw [Function.update_of_ne same, and_iff_left same]

end Ownership

end PDS.Sfs
