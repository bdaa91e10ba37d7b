import PDS.Lib.Slots
import PDS.Sfs.Life

/-!
# The directory

The contents of a directory are a table of slots of `64` bytes, and the table represents a map from names to inode
numbers. A directory without holes can always be read, and a slot in it can always be overwritten; a new slot at
the end may need another block.
-/

namespace PDS.Sfs
open Kern Word

/-- The directory entry in a slot. -/
def File.entry (f : File) (j : Nat) : SfsDir := SfsDir.ofBytes (f.bytes (64 * j) 64)

/-- The table that a directory holds: the names with their inode numbers. -/
def File.slots (f : File) : Slots (List UInt8) Nat := fun j =>
  if j < f.size / 64 ∧ (f.entry j).ino ≠ 0 then some ((f.entry j).cname, (f.entry j).ino) else none

/-- What an entry says. -/
def SfsDir.slot (sd : SfsDir) : Option (List UInt8 × Nat) := if sd.ino ≠ 0 then some (sd.cname, sd.ino) else none

section

variable {f : File} {j l : Nat} {sd : SfsDir} {bytes : List UInt8}

/-- The size of a directory is a multiple of the size of an entry, and not larger than a file can be. -/
structure File.Sized (f : File) : Prop where
  whole : f.size % 64 = 0
  small : f.size ≤ 143 * 512

/-- A slot inside the directory is its entry. -/
lemma File.slots_of_lt (lt : j < f.size / 64) : f.slots j = (f.entry j).slot := by
  rw [File.slots, SfsDir.slot]
  simp only [lt, true_and]

/-- There is no slot beyond its size. -/
lemma File.slots_of_le (le : f.size / 64 ≤ j) : f.slots j = none :=
  if_neg (fun c => by omega)

/-- A slot that holds something is inside. -/
lemma File.lt_of_slots {x : List UInt8 × Nat} (hold : f.slots j = some x) : j < f.size / 64 := by
  by_contra le
  rw [File.slots_of_le (by omega)] at hold
  cases hold

/-- The slots end with the size. -/
lemma File.slots_below (f : File) : f.slots.Below (f.size / 64) := fun _ le => File.slots_of_le le

/-- A directory has at most 1144 slots. -/
lemma File.Sized.slots_lt (h : f.Sized) : f.size / 64 ≤ 1144 := by
  have := h.small
  omega

/-- An entry takes 64 bytes. -/
lemma SfsDir.length_toBytes (sd : SfsDir) (name : sd.name.length = 60) : sd.toBytes.length = 64 := by
  simp [SfsDir.toBytes, name]

/-- The bytes that have just been stored. -/
lemma File.bytes_store_self (f : File) (pos : Nat) : (f.store pos bytes).bytes pos bytes.length = bytes := by
  apply List.ext_getElem
  · simp
  · intro k h h'
    simp only [File.bytes, List.getElem_map, List.getElem_range', one_mul]
    rw [File.byte_store, if_pos (by omega), Nat.add_sub_cancel_left, List.getD_eq_getElem _ _ h']

/-- Bytes somewhere else. -/
lemma File.bytes_store_of_disjoint (f : File) {pos pos' n : Nat} (apart : pos' + n ≤ pos ∨ pos + bytes.length ≤ pos') :
    (f.store pos bytes).bytes pos' n = f.bytes pos' n := by
  rw [File.bytes, File.bytes]
  apply List.map_congr_left
  intro p mem
  have := List.mem_range'_1.1 mem
  rw [File.byte_store, if_neg (by omega)]

/-- Growing the file changes no entry. -/
lemma File.entry_grow (f : File) (stop : Nat) : (f.grow stop).entry = f.entry := by
  rw [File.grow]
  split_ifs
  · rfl
  · rfl

/-- The entries, when one is written. -/
lemma File.entry_store (f : File) (ino : sd.ino < 2 ^ 32) (name : sd.name.length = 60) :
    (f.store (64 * j) sd.toBytes).entry l = if l = j then sd else f.entry l := by
  have length := SfsDir.length_toBytes sd name
  rw [File.entry]
  split_ifs with same
  · rw [same, ← length, File.bytes_store_self, SfsDir.ofBytes_toBytes ino]
  · rw [File.bytes_store_of_disjoint, File.entry]
    omega

/-- A file in which a directory entry is written. -/
def File.setEntry (f : File) (j : Nat) (sd : SfsDir) : File := (f.store (64 * j) sd.toBytes).grow (64 * j + 64)

/-- The size after an entry is written. -/
lemma File.size_setEntry (small : 64 * j + 64 ≤ 143 * 512) :
    (f.setEntry j sd).size = max f.size (64 * j + 64) := by
  rw [File.setEntry, File.grow, File.size_store]
  split_ifs with longer
  · show (64 * j + 64) % 2 ^ 32 = _
    omega
  · rw [File.size_store]
    omega

/-- Writing an entry changes no link count. -/
@[simp] lemma File.links_setEntry : (f.setEntry j sd).links = f.links := by
  rw [File.setEntry, File.grow]
  split_ifs
  · rfl
  · rfl

/-- The size stays within the 143 blocks. -/
lemma File.Sized.setEntry (h : f.Sized) (small : 64 * j + 64 ≤ 143 * 512) : (f.setEntry j sd).Sized := by
  have := h.whole
  have := h.small
  refine ⟨?_, ?_⟩
  · rw [File.size_setEntry small]
    omega
  · rw [File.size_setEntry small]
    omega

/-- The table, when an entry is written in a slot or behind the last one. -/
lemma File.Sized.slots_setEntry (h : f.Sized) (le : j ≤ f.size / 64) (small : 64 * j + 64 ≤ 143 * 512)
    (ino : sd.ino < 2 ^ 32) (name : sd.name.length = 60) :
    (f.setEntry j sd).slots = Function.update f.slots j sd.slot := by
  have whole := h.whole
  have entry (l : Nat) : (f.setEntry j sd).entry l = if l = j then sd else f.entry l := by
    rw [File.setEntry, File.entry_grow, File.entry_store f ino name]
  have size : (f.setEntry j sd).size = max f.size (64 * j + 64) := File.size_setEntry small
  funext l
  by_cases same : l = j
  · rw [same, Function.update_self, File.slots_of_lt (by omega), entry, if_pos rfl]
  · rw [Function.update_of_ne same]
    by_cases lt : l < f.size / 64
    · rw [File.slots_of_lt (by omega), File.slots_of_lt lt, entry, if_neg same]
    · rw [File.slots_of_le (by omega), File.slots_of_le (by omega)]

end

/-- The root directory is in order: it has no holes, and no name is in it twice. -/
structure RootDir (s : SfsFs) : Prop where
  sized : (s.file 1).Sized
  filled : ∀ p < (s.file 1).size, s.ptr 1 (dataSlot (p / 512)) ≠ 0
  distinct : (s.file 1).slots.Distinct

/-- The map from names to inode numbers that the root directory represents. -/
noncomputable def SfsFs.dir (s : SfsFs) : List UInt8 → Option Nat := (s.file 1).slots.map

section

variable {s s' : SfsFs} {N : Nat → Prop} {sv i j : Nat} {sd : SfsDir} {name : CStr}

/-- The rule for a transfer with a request of its own. -/
lemma wp_withUio {u : Uio} {m : IoM Unit} {Q : Uio → SfsFs → Prop} {E : Nat → SfsFs → Prop}
    (h : Prog.wp m (fun _ st => Q st.2 st.1) (fun e st => E e st.1) (s, u)) : Prog.wp (withUio u m) Q E s := by
  rw [Prog.wp] at h ⊢
  rw [withUio]
  cases run : m (s, u) with
  | error => rw [run] at h; exact h
  | ok r =>
    obtain ⟨r, s', u'⟩ := r
    rw [run] at h
    cases r with
    | error e => exact h
    | ok => exact h

/-- An entry inside of the directory is read. -/
lemma Core.wp_sfsReaddir (h : Core s N) (mem : sv ∈ s.vnodes) (ino : (s.vnode sv).ino = i) (sized : (s.file i).Sized)
    (lt : j < (s.file i).size / 64) {Q : SfsDir → SfsFs → Prop} {E : Nat → SfsFs → Prop}
    (post : Q ((s.file i).entry j) s) : Prog.wp (sfsReaddir sv j) Q E s := by
  have small := sized.small
  rw [sfsReaddir, Prog.wp_andThen_iff]
  refine Prog.wp_of_run rfl ?_
  rw [Prog.wp_andThen_iff]
  have ok : (uioKinit [] 64 (j * 64) .read).Ok := by
    refine ⟨⟨?_, ?_⟩, nofun⟩
    · exact Nat.le_refl 64
    · show 64 < 2 ^ 32
      norm_num
  refine wp_withUio ((h.wp_sfsIo_read mem ok rfl (by rw [ino])).mono ?_ ?_)
  · rintro _ st ⟨eq, -⟩
    dsimp only [uioKinit] at eq
    have all : min 64 ((s.file i).size - j * 64) = 64 := by omega
    rw [all, Nat.mul_comm j 64] at eq
    have resid : st.2.resid = 0 := by
      rw [eq]
      simp [Uio.put]
    have data : st.2.data = (s.file i).bytes (64 * j) 64 := by
      rw [eq]
      rfl
    have same : st.1 = s := by rw [eq]
    rw [Prog.wp_andThen_iff]
    refine Prog.wp.require resid ?_
    rw [Prog.wp_pure_iff, data, same]
    exact post
  · rintro e st ⟨m, short, -, -, large⟩
    exfalso
    dsimp only [uioKinit] at short large
    omega

/-- What became of writing the entry `sd` in slot `j` of the inode `i`: nothing if there was no space. -/
def NotWritten (N : Nat → Prop) (s : SfsFs) (i j e : Nat) (s' : SfsFs) : Prop :=
  Writes N s i (s.file i) s' ∧ (e = enospc ∧ s.ptr i (dataSlot (64 * j / 512)) = 0 ∨ e = efbig ∧ 143 * 512 ≤ 64 * j)

/-- An entry is written in a slot or behind the last one. -/
lemma Core.wp_sfsWritedir (h : Core s N) (mem : sv ∈ s.vnodes) (ino : (s.vnode sv).ino = i) (sized : (s.file i).Sized)
    (le : j ≤ (s.file i).size / 64) (name : sd.name.length = 60) :
    Prog.wp (sfsWritedir sv sd j)
      (fun _ s' => Writes N s i ((s.file i).setEntry j sd) s' ∧ s'.ptr i (dataSlot (64 * j / 512)) ≠ 0 ∧
        64 * j + 64 ≤ 143 * 512)
      (NotWritten N s i j) s := by
  have small := sized.small
  have length := SfsDir.length_toBytes sd name
  rw [sfsWritedir, Prog.wp_andThen_iff]
  refine Prog.wp_of_run rfl ?_
  rw [Prog.wp_andThen_iff]
  have ok : (uioKinit sd.toBytes 64 (j * 64) .write).Ok := by
    refine ⟨⟨?_, ?_⟩, fun _ => ?_⟩
    · exact Nat.le_refl 64
    · show 64 < 2 ^ 32
      norm_num
    · exact length.ge
  have pos : (uioKinit sd.toBytes 64 (j * 64) .write).pos = 64 * j := by
    rw [Uio.pos]
    dsimp only [uioKinit]
    omega
  subst ino
  refine wp_withUio ((h.wp_sfsIo_write mem ok rfl).mono ?_ ?_)
  · intro _ st wrote
    have inside := wrote.inside
    have filled := wrote.filled (64 * j)
    have writes := wrote.writes
    rw [pos] at inside filled writes
    dsimp only [uioKinit] at inside filled writes
    rw [List.take_of_length_le length.le, Nat.mul_comm j 64] at writes
    refine Prog.wp.require ?_ ⟨writes, filled (Nat.le_refl _) (by omega), by omega⟩
    rw [wrote.rest]
    rfl
  · rintro e st ⟨m, wrote, short, aligned, why⟩
    dsimp only [uioKinit] at short aligned why
    -- an entry does not cross the end of a block
    have zero : m = 0 := by omega
    subst zero
    have writes := wrote.writes
    rw [pos, List.take_zero, File.store_nil, File.grow, if_neg] at writes
    · refine ⟨writes, ?_⟩
      have start : (j * 64 + 0) % 2 ^ 41 = 64 * j := by omega
      rw [start] at why
      obtain ⟨full, -, hole⟩ | large := why
      · exact .inl ⟨full, hole⟩
      · exact .inr large
    · dsimp only [uioKinit]
      omega

/-- The root directory holds `x` in slot `j` now, and nothing else has changed. -/
structure Enters (N : Nat → Prop) (s : SfsFs) (j : Nat) (x : Option (List UInt8 × Nat)) (s' : SfsFs) : Prop where
  core : Core s' N
  frame : Frame s s'
  files : ∀ k, s.Live N k → k ≠ 1 → s'.file k = s.file k
  links : (s'.file 1).links = (s.file 1).links
  sized : (s'.file 1).Sized
  filled : ∀ p < (s'.file 1).size, s'.ptr 1 (dataSlot (p / 512)) ≠ 0
  slots : (s'.file 1).slots = Function.update (s.file 1).slots j x

/-- The root is always live. -/
lemma SfsFs.live_root : s.Live N 1 := .inl rfl

/-- Entering a name changes no link count. -/
lemma Enters.links_eq {x : Option (List UInt8 × Nat)} (h : Enters N s j x s') (live : s.Live N i) :
    (s'.file i).links = (s.file i).links := by
  by_cases one : i = 1
  · rw [one, h.links]
  · rw [h.files i live one]

/-- The rule of `sfs_writedir`. -/
lemma Core.wp_sfsWritedir_root (h : Core s N) (root : RootDir s) (mem : sv ∈ s.vnodes) (ino : (s.vnode sv).ino = 1)
    (le : j ≤ (s.file 1).size / 64) (number : sd.ino < 2 ^ 32) (name : sd.name.length = 60) :
    Prog.wp (sfsWritedir sv sd j) (fun _ => Enters N s j sd.slot) (NotWritten N s 1 j) s := by
  have whole := root.sized.whole
  refine (h.wp_sfsWritedir mem ino root.sized le name).mono ?_ (fun _ _ e => e)
  rintro _ s' ⟨writes, filled, small⟩
  have file := writes.file_self SfsFs.live_root
  refine ⟨writes.core, writes.frame, ?_, ?_, ?_, ?_, ?_⟩
  · intro k live ne
    rw [writes.files k live, Function.update_of_ne ne]
  · rw [file, File.links_setEntry]
  · rw [file]
    exact root.sized.setEntry small
  · intro p lt
    rw [file, File.size_setEntry small] at lt
    by_cases old : p < (s.file 1).size
    · exact writes.keeps 1 _ SfsFs.live_root (root.filled p old)
    · have same : p / 512 = 64 * j / 512 := by omega
      rw [same]
      exact filled
  · rw [file]
    exact root.sized.slots_setEntry le small number name

/-- A slot of the root directory is overwritten, which always succeeds. -/
lemma Core.wp_sfsDirUnlink (h : Core s N) (root : RootDir s) (mem : sv ∈ s.vnodes) (ino : (s.vnode sv).ino = 1)
    (lt : j < (s.file 1).size / 64) {E : Nat → SfsFs → Prop} :
    Prog.wp (sfsDirUnlink sv j) (fun _ => Enters N s j none) E s := by
  have small := root.sized.small
  refine (h.wp_sfsWritedir_root root mem ino (Nat.le_of_lt lt) ?_ rfl).mono (fun _ _ done => done) ?_
  · show 0 < 2 ^ 32
    norm_num
  · rintro e s' ⟨-, ⟨-, hole⟩ | ⟨-, large⟩⟩
    · exact absurd hole (root.filled (64 * j) (by omega))
    · omega

/-- What is known when the slots up to `n` have been searched for a name. -/
structure Search.Seen (t : Slots (List UInt8) Nat) (name : List UInt8) (n : Nat) (r : Search) : Prop where
  found : ∀ v j, r.found = some (v, j) → j < n ∧ t j = some (name, v)
  absent : r.found = none → ∀ j < n, ∀ v, t j ≠ some (name, v)
  empty : ∀ j, r.emptyslot = some j → j < n ∧ t j = none

/-- The rule for one entry of the search. -/
lemma wp_searchEntry {r : Search} {tsd : SfsDir} {t : Slots (List UInt8) Nat} {n : Nat} (slot : t n = tsd.slot)
    (distinct : t.Distinct) (seen : r.Seen t name.val n) {E : Nat → SfsFs → Prop} :
    Prog.wp (searchEntry name n tsd r) (fun r' s' => s' = s ∧ r'.Seen t name.val (n + 1)) E s := by
  rw [searchEntry]
  split_ifs with free same
  · rw [SfsDir.slot, if_neg (fun ne => ne free)] at slot
    refine ⟨rfl, ?_, ?_, ?_⟩
    · intro v j found
      have := seen.found v j found
      exact ⟨by omega, this.2⟩
    · intro none j lt v hold
      by_cases last : j = n
      · rw [last, slot] at hold
        cases hold
      · exact seen.absent none j (by omega) v hold
    · intro j here
      obtain rfl := Option.some.inj here
      exact ⟨by omega, slot⟩
  · rw [SfsDir.slot, if_pos free, same] at slot
    -- the name has not been seen before
    have none : r.found = none := by
      cases found : r.found with
      | none => rfl
      | some x =>
        obtain ⟨lt, hold⟩ := seen.found x.1 x.2 found
        have := distinct hold slot
        omega
    rw [Prog.wp_andThen_iff]
    refine Prog.wp.require none ⟨rfl, ?_, (fun no => by cases no), ?_⟩
    · intro v j here
      obtain ⟨rfl, rfl⟩ := Prod.mk.inj (Option.some.inj here)
      exact ⟨by omega, slot⟩
    · intro j here
      have := seen.empty j here
      exact ⟨by omega, this.2⟩
  · rw [SfsDir.slot, if_pos free] at slot
    refine ⟨rfl, ?_, ?_, ?_⟩
    · intro v j found
      have := seen.found v j found
      exact ⟨by omega, this.2⟩
    · intro none j lt v hold
      by_cases last : j = n
      · rw [last, slot] at hold
        exact same (congrArg Prod.fst (Option.some.inj hold))
      · exact seen.absent none j (by omega) v hold
    · intro j here
      have := seen.empty j here
      exact ⟨by omega, this.2⟩

/-- The rule of the search loop, by induction on the slots left. -/
lemma Core.wp_sfsDirFindnameLoop (h : Core s N) (root : RootDir s) (mem : sv ∈ s.vnodes) (ino : (s.vnode sv).ino = 1)
    (n k : Nat) (stop : k + n = (s.file 1).size / 64) {r : Search} (seen : r.Seen (s.file 1).slots name.val k)
    {E : Nat → SfsFs → Prop} :
    Prog.wp (sfsDirFindnameLoop sv name n k r)
      (fun r' s' => s' = s ∧ r'.Seen (s.file 1).slots name.val ((s.file 1).size / 64)) E s := by
  induction n generalizing k r with
  | zero =>
    rw [sfsDirFindnameLoop, Prog.wp_pure_iff]
    refine ⟨rfl, ?_⟩
    rw [← stop]
    exact seen
  | succ n ih =>
    rw [sfsDirFindnameLoop, Prog.wp_andThen_iff]
    refine h.wp_sfsReaddir mem ino root.sized (by omega) ?_
    rw [Prog.wp_andThen_iff]
    refine (wp_searchEntry (File.slots_of_lt (by omega)) root.distinct seen).mono ?_ (fun _ _ e => e)
    rintro r' _ ⟨rfl, seen'⟩
    exact ih (k + 1) (by omega) seen'

/-- The rule of `sfs_dir_nentries`. -/
lemma Core.wp_sfsDirNentries (h : Core s N) (root : RootDir s) (mem : sv ∈ s.vnodes) (ino : (s.vnode sv).ino = 1)
    {Q : Nat → SfsFs → Prop} {E : Nat → SfsFs → Prop} (post : Q ((s.file 1).size / 64) s) :
    Prog.wp (sfsDirNentries sv) Q E s := by
  have inode : s.inode 1 = (s.vnode sv).i := by
    rw [← ino]
    exact h.table.inode_eq mem
  have size : (s.vnode sv).i.size.toNat = (s.file 1).size := congrArg (fun i => UInt32.toNat (SfsInode.size i)) inode.symm
  have type : (s.vnode sv).i.type = typeDir := by
    rw [← inode]
    exact h.type SfsFs.live_root
  rw [sfsDirNentries, Prog.wp_andThen_iff]
  refine Prog.wp_of_run rfl ?_
  rw [Prog.wp_andThen_iff]
  refine Prog.wp.require type ?_
  dsimp only
  rw [size, Prog.wp_andThen_iff]
  exact Prog.wp.require root.sized.whole post

/-- The search for a name in the root directory. -/
lemma Core.wp_sfsDirFindname (h : Core s N) (root : RootDir s) (mem : sv ∈ s.vnodes) (ino : (s.vnode sv).ino = 1)
    {E : Nat → SfsFs → Prop} :
    Prog.wp (sfsDirFindname sv name)
      (fun r s' => s' = s ∧ r.Seen (s.file 1).slots name.val ((s.file 1).size / 64)) E s := by
  rw [sfsDirFindname, Prog.wp_andThen_iff]
  refine h.wp_sfsDirNentries root mem ino ?_
  refine h.wp_sfsDirFindnameLoop root mem ino _ 0 (Nat.zero_add _) ⟨?_, ?_, ?_⟩
  · intro v j no
    cases no
  · intro _ j lt
    omega
  · intro j no
    cases no

/-- A name that was found is in the directory. -/
lemma Search.Seen.dir_some {r : Search} {n v j : Nat} (seen : r.Seen (s.file 1).slots name.val n) (root : RootDir s)
    (found : r.found = some (v, j)) : s.dir name.val = some v :=
  root.distinct.map_eq_some.2 ⟨j, (seen.found v j found).2⟩

/-- A name that was not is not. -/
lemma Search.Seen.dir_none {r : Search} (seen : r.Seen (s.file 1).slots name.val ((s.file 1).size / 64))
    (missing : r.found = none) : s.dir name.val = none := by
  rw [SfsFs.dir, Slots.map_eq_none]
  intro j v hold
  by_cases lt : j < (s.file 1).size / 64
  · exact seen.absent missing j lt v hold
  · rw [File.slots_of_le (by omega)] at hold
    cases hold

/-- Why a name cannot be entered into a directory in which it stands for `found`. -/
def WhyNoLink (found : Option Nat) (name : CStr) (e : Nat) : Prop :=
  e = eexist ∧ found ≠ none ∨
    found = none ∧ (e = enametoolong ∧ 60 ≤ name.val.length ∨ name.val.length < 60 ∧ (e = enospc ∨ e = efbig))

/-- The name in an entry that `sfs_dir_link` makes. -/
lemma SfsDir.slot_link {k : Nat} (ne : k ≠ 0) (short : name.val.length < 60) :
    (⟨k, name.val ++ List.replicate (60 - name.val.length) 0⟩ : SfsDir).slot = some (name.val, k) := by
  rw [SfsDir.slot, if_pos ne, SfsDir.cname]
  dsimp only
  rw [List.take_append, List.take_of_length_le (by omega), List.take_replicate, cstring_append_zeros]

/-- The rule of `sfs_dir_link`. -/
lemma Core.wp_sfsDirLink (h : Core s N) (root : RootDir s) (mem : sv ∈ s.vnodes) (ino : (s.vnode sv).ino = 1) {k : Nat}
    (live : s.Live N k) :
    Prog.wp (sfsDirLink sv name k)
      (fun slot s' => s.dir name.val = none ∧ (s.file 1).slots slot = none ∧ Enters N s slot (some (name.val, k)) s')
      (fun e s' => Writes N s 1 (s.file 1) s' ∧ WhyNoLink (s.dir name.val) name e) s := by
  rw [sfsDirLink, Prog.wp_andThen_iff]
  refine (h.wp_sfsDirFindname root mem ino).mono ?_ (fun _ _ e => e)
  rintro r s₁ ⟨same, seen⟩
  rw [same]
  cases found : r.found with
  | some x =>
    refine ⟨.refl h, .inl ⟨rfl, ?_⟩⟩
    rw [seen.dir_some root found]
    exact nofun
  | none =>
    have absent := seen.dir_none found
    rw [absent, if_neg (by decide)]
    split_ifs with long
    · exact ⟨.refl h, .inr ⟨rfl, .inl ⟨rfl, by omega⟩⟩⟩
    · have short : name.val.length < 60 := by omega
      rw [Prog.wp_andThen_iff]
      refine h.wp_sfsDirNentries root mem ino ?_
      generalize hs : r.emptyslot.getD ((s.file 1).size / 64) = slot
      have place : slot ≤ (s.file 1).size / 64 ∧ (s.file 1).slots slot = none := by
        cases empty : r.emptyslot with
        | none =>
          rw [empty] at hs
          subst hs
          exact ⟨Nat.le_refl _, File.slots_of_le (Nat.le_refl _)⟩
        | some j =>
          rw [empty] at hs
          subst hs
          obtain ⟨lt, free⟩ := seen.empty j empty
          exact ⟨Nat.le_of_lt lt, free⟩
      rw [Prog.wp_andThen_iff]
      refine (h.wp_sfsWritedir_root root mem ino place.1 ?_ ?_).mono ?_ ?_
      · exact h.lt_word (h.inode_lt live)
      · simp
        omega
      · intro _ s' enters
        rw [SfsDir.slot_link (h.inode_ne_zero live) short] at enters
        exact ⟨rfl, place.2, enters⟩
      · rintro e s' ⟨writes, why⟩
        refine ⟨writes, .inr ⟨rfl, .inr ⟨short, ?_⟩⟩⟩
        obtain full | large := why
        · exact .inl full.1
        · exact .inr large.1

end

end PDS.Sfs
