import PDS.Sfs.Leak

/-!
# What a sync that succeeds has written

`sfs_sync` writes the inodes that are dirty, then the free map and the superblock if they are dirty (`syncWrites`).
It ignores what `VOP_FSYNC` returns, so that it succeeds although an inode has not been written
(`sfs_sync_honest_iff`).
-/

namespace PDS.Sfs
open Kern Word

/-- What is on the disk after the writes `ws`, which are the requests from `n` on. -/
def afterWrites (req : Nat → Request) : Nat → List (Nat × Block) → (Nat → Block) → Nat → Block
  | _, [], sect => sect
  | n, (b, data) :: ws, sect => afterWrites req (n + 1) ws (if req n = .done then Function.update sect b data else sect)

section Writes

variable {req : Nat → Request} {n b : Nat} {ws ws' : List (Nat × Block)} {sect : Nat → Block}

/-- Two groups of writes, one after the other. -/
lemma afterWrites_append : afterWrites req n (ws ++ ws') sect =
    afterWrites req (n + ws.length) ws' (afterWrites req n ws sect) := by
  induction ws generalizing n sect with
  | nil => rfl
  | cons w ws ih =>
    obtain ⟨b, data⟩ := w
    rw [List.cons_append, afterWrites, ih, afterWrites, List.length_cons, Nat.add_right_comm, Nat.add_assoc]

/-- A block that is not written stays. -/
lemma afterWrites_of_notMem (other : b ∉ ws.map Prod.fst) : afterWrites req n ws sect b = sect b := by
  induction ws generalizing n sect with
  | nil => rfl
  | cons w ws ih =>
    obtain ⟨c, data⟩ := w
    rw [List.map_cons, List.mem_cons, not_or] at other
    rw [afterWrites, ih other.2]
    split_ifs
    · exact Function.update_of_ne other.1 ..
    · rfl

/-- All the data is on the disk if each write has been carried out, or has not been necessary. -/
lemma afterWrites_iff (distinct : (ws.map Prod.fst).Nodup) :
    (∀ w ∈ ws, afterWrites req n ws sect w.1 = w.2) ↔
      ∀ i w, ws[i]? = some w → req (n + i) = .done ∨ sect w.1 = w.2 := by
  induction ws generalizing n sect with
  | nil => simp
  | cons w ws ih =>
    obtain ⟨b, data⟩ := w
    rw [List.map_cons, List.nodup_cons] at distinct
    have first : afterWrites req n ((b, data) :: ws) sect b = data ↔ req n = .done ∨ sect b = data := by
      rw [afterWrites, afterWrites_of_notMem distinct.1]
      split_ifs with done
      · rw [Function.update_self]
        exact iff_of_true rfl (.inl done)
      · rw [or_iff_right done]
    have rest : (∀ w ∈ ws, afterWrites req n ((b, data) :: ws) sect w.1 = w.2) ↔
        ∀ i w, ws[i]? = some w → req (n + 1 + i) = .done ∨ sect w.1 = w.2 := by
      rw [afterWrites, ih distinct.2]
      refine forall₃_congr fun i w here => or_congr_right ?_
      have other : w.1 ≠ b := by
        rintro rfl
        exact distinct.1 (List.mem_map.2 ⟨w, List.mem_of_getElem? here, rfl⟩)
      split_ifs
      · rw [Function.update_of_ne other]
      · rfl
    rw [List.forall_mem_cons, first, rest]
    constructor
    · rintro ⟨head, tail⟩ i w here
      cases i with
      | zero =>
        cases here
        exact head
      | succ i =>
        rw [← Nat.add_assoc, Nat.add_right_comm]
        exact tail i w here
    · intro all
      refine ⟨all 0 _ rfl, fun i w here => ?_⟩
      have later := all (i + 1) w here
      rw [← Nat.add_assoc, Nat.add_right_comm] at later
      exact later

end Writes

/-- The inodes of the vnodes that are dirty. -/
def inodeWrites (s : SfsFs) (vnodes : List Nat) : List (Nat × Block) :=
  (vnodes.filter fun sv => (s.vnode sv).dirty).map fun sv => ((s.vnode sv).ino, (s.vnode sv).i.toBlock)

/-- The blocks of the free map from `j` on. -/
def mapWrites (s : SfsFs) (k j : Nat) : List (Nat × Block) :=
  (List.range' j k).map fun j => (2 + j, mapBlock s.freemap j)

/-- The writes of `sfs_sync`, in order. -/
def syncWrites (s : SfsFs) : List (Nat × Block) :=
  inodeWrites s s.vnodes ++ ((if s.freemapdirty then mapWrites s (bitblocks s.nblocks) 0 else []) ++
    if s.superdirty then [(0, s.super)] else [])

/-- What was dirty is on the disk, with the values that it had, and nothing is dirty. -/
structure SyncHonest (s s' : SfsFs) : Prop where
  inode : ∀ sv ∈ s.vnodes, (s.vnode sv).dirty = true → s'.dev.sect (s.vnode sv).ino = (s.vnode sv).i.toBlock
  map : s.freemapdirty = true → ∀ j < bitblocks s.nblocks, s'.dev.sect (2 + j) = mapBlock s.freemap j
  super : s.superdirty = true → s'.dev.sect 0 = s.super
  clean : ∀ sv ∈ s.vnodes, (s'.vnode sv).dirty = false
  mapclean : s'.freemapdirty = false
  superclean : s'.superdirty = false

/-- The writes `ws` have been requested, and the disk is as they have left it. -/
structure Issued (req : Nat → Request) (s : SfsFs) (n : Nat) (ws : List (Nat × Block)) (st : SfsFs × Nat) : Prop where
  sect : st.1.dev.sect = afterWrites req n ws s.dev.sect
  count : st.2 = n + ws.length
  vnodes : st.1.vnodes = s.vnodes
  super : st.1.super = s.super
  freemap : st.1.freemap = s.freemap

section

variable {req : Nat → Request} {s : SfsFs} {N : Nat → Prop} {sv n b : Nat} {ws ws' : List (Nat × Block)}
  {st st' : SfsFs × Nat}

/-- No write issued. -/
lemma Issued.nil : Issued req s n [] (s, n) := ⟨rfl, rfl, rfl, rfl, rfl⟩

/-- Two groups of writes issued. -/
lemma Issued.append (h : Issued req s n ws st) (h' : Issued req st.1 st.2 ws' st') : Issued req s n (ws ++ ws') st' where
  sect := by rw [h'.sect, h.sect, h.count, afterWrites_append]
  count := by rw [h'.count, h.count, List.length_append, Nat.add_assoc]
  vnodes := h'.vnodes.trans h.vnodes
  super := h'.super.trans h.super
  freemap := h'.freemap.trans h.freemap

/-- No request of the writes `ws` is reported as a failure. -/
def NoneFails (req : Nat → Request) (n : Nat) (ws : List (Nat × Block)) : Prop :=
  ∀ i < ws.length, ¬ (req (n + i)).Fails

/-- None of two groups fails. -/
lemma NoneFails.append_iff : NoneFails req n (ws ++ ws') ↔ NoneFails req n ws ∧ NoneFails req (n + ws.length) ws' := by
  constructor
  · intro none
    refine ⟨fun i lt => none i ?_, fun i lt => ?_⟩
    · rw [List.length_append]
      omega
    · rw [Nat.add_assoc]
      refine none _ ?_
      rw [List.length_append]
      omega
  · rintro ⟨none, none'⟩ i lt
    rw [List.length_append] at lt
    by_cases first : i < ws.length
    · exact none i first
    · have later := none' (i - ws.length) (by omega)
      rw [show n + ws.length + (i - ws.length) = n + i by omega] at later
      exact later

/-- No write, no failure. -/
lemma NoneFails.nil : NoneFails req n [] := fun _ lt => absurd lt (Nat.not_lt_zero _)

/-- One write that does not fail. -/
lemma NoneFails.single (works : ¬ (req n).Fails) (w : Nat × Block) : NoneFails req n [w] := by
  intro i lt
  have zero : i = 0 := by simpa using lt
  rw [zero]
  exact works

/-- A write that returns. -/
lemma wlp_wblock_issued {data : Block} {Q : Unit → SfsFs × Nat → Prop} {E : Nat → SfsFs × Nat → Prop} (small : b < 2 ^ 32)
    (ok : ∀ dev, ¬ (req n).Fails → Issued req s n [(b, data)] ({ s with dev := dev }, n + 1) →
      Q () ({ s with dev := dev }, n + 1))
    (err : ∀ e ne, req n = .fails e ne → E e (s, n + 1)) : Prog.wlp (Faulty.wblock req data b) Q E (s, n) := by
  refine Faulty.wlp_wblock ?_ ?_ err
  · intro dev done write
    refine ok dev (by rw [done]; exact id) ⟨?_, rfl, rfl, rfl, rfl⟩
    rw [write small]
    dsimp only [afterWrites]
    rw [if_pos done]
    rfl
  · intro lost
    refine ok s.dev (by rw [lost]; exact id) ⟨?_, rfl, rfl, rfl, rfl⟩
    dsimp only [afterWrites]
    rw [if_neg (by rw [lost]; nofun)]

/-- A write that fails was issued. -/
lemma Issued.failed {data : Block} {e : Nat} {ne : e ≠ 0} (fails : req n = .fails e ne) :
    Issued req s n [(b, data)] (s, n + 1) := by
  refine ⟨?_, rfl, rfl, rfl, rfl⟩
  dsimp only [afterWrites]
  rw [if_neg (by rw [fails]; nofun)]

/-- The vnodes `l` have been visited. Those whose write has failed are still dirty. -/
structure Visited (req : Nat → Request) (s : SfsFs) (n : Nat) (l : List Nat) (st : SfsFs × Nat) : Prop where
  issued : Issued req s n (inodeWrites s l) st
  mapdirty : st.1.freemapdirty = s.freemapdirty
  superdirty : st.1.superdirty = s.superdirty
  other : ∀ sv, sv ∉ l → st.1.vnode sv = s.vnode sv
  clean : (∀ sv ∈ l, (st.1.vnode sv).dirty = false) ↔ NoneFails req n (inodeWrites s l)

/-- The writes depend on the vnodes they are for. -/
lemma inodeWrites_congr {s' : SfsFs} {l : List Nat} (same : ∀ sv ∈ l, s'.vnode sv = s.vnode sv) :
    inodeWrites s' l = inodeWrites s l := by
  rw [inodeWrites, inodeWrites, List.filter_congr fun sv mem => by rw [same sv mem]]
  refine List.map_congr_left fun sv mem => ?_
  rw [same sv (List.mem_of_mem_filter mem)]

/-- The writes for one vnode more. -/
lemma inodeWrites_cons (sv : Nat) (l : List Nat) : inodeWrites s (sv :: l) = inodeWrites s [sv] ++ inodeWrites s l := by
  rw [inodeWrites, inodeWrites, inodeWrites, ← List.map_append, ← List.filter_append]
  rfl

/-- A dirty inode is written. -/
lemma inodeWrites_of_dirty (dirty : (s.vnode sv).dirty = true) :
    inodeWrites s [sv] = [((s.vnode sv).ino, (s.vnode sv).i.toBlock)] := by
  simp [inodeWrites, dirty]

/-- A clean one is not. -/
lemma inodeWrites_of_clean (clean : ¬ (s.vnode sv).dirty = true) : inodeWrites s [sv] = [] := by
  simp [inodeWrites, clean]

/-- One vnode, whether or not its write fails. -/
lemma wlp_sfsFsync (small : (s.vnode sv).ino < 2 ^ 32) :
    Prog.wlp (Faulty.sfsFsync req sv) (fun _ => Visited req s n [sv]) (fun _ => Visited req s n [sv]) (s, n) := by
  rw [Faulty.sfsFsync, Faulty.sfsSyncInode, Prog.wlp_andThen_iff]
  refine Prog.wlp_of_run (a := s.vnode sv) rfl ?_
  split_ifs with dirty
  · have ws := inodeWrites_of_dirty dirty
    rw [Prog.wlp_andThen_iff]
    refine wlp_wblock_issued small ?_ ?_
    · intro dev works issued
      refine Prog.wlp_of_run rfl ⟨?_, rfl, rfl, ?_, ?_⟩
      · rw [ws]
        exact ⟨issued.sect, issued.count, rfl, rfl, rfl⟩
      · intro sw mem
        exact Function.update_of_ne (List.ne_of_not_mem_cons mem) ..
      · rw [ws, List.forall_mem_singleton]
        refine iff_of_true ?_ (.single works _)
        dsimp only
        rw [Function.update_self]
    · intro e ne fails
      refine ⟨?_, rfl, rfl, fun _ _ => rfl, ?_⟩
      · rw [ws]
        exact .failed fails
      · rw [ws, List.forall_mem_singleton]
        refine iff_of_false (by rw [dirty]; nofun) fun none => none 0 Nat.one_pos ?_
        rw [Nat.add_zero, fails]
        trivial
  · have ws := inodeWrites_of_clean dirty
    refine ⟨?_, rfl, rfl, fun _ _ => rfl, ?_⟩
    · rw [ws]
      exact .nil
    · rw [ws, List.forall_mem_singleton]
      exact iff_of_true (by simpa using dirty) .nil

/-- The rule for the vnodes, by induction on their list. -/
lemma wlp_sfsSyncVnodes (l : List Nat) (nodup : l.Nodup) (small : ∀ sv ∈ l, (s.vnode sv).ino < 2 ^ 32) :
    Prog.wlp (Faulty.sfsSyncVnodes req l) (fun _ => Visited req s n l) (fun _ _ => False) (s, n) := by
  induction l generalizing s n with
  | nil => exact ⟨.nil, rfl, rfl, fun _ _ => rfl, iff_of_true nofun .nil⟩
  | cons sv l ih =>
    rw [List.nodup_cons] at nodup
    -- the other vnodes are as they were
    have more {st : SfsFs × Nat} (first : Visited req s n [sv] st) :
        Prog.wlp (Faulty.sfsSyncVnodes req l) (fun _ => Visited req s n (sv :: l)) (fun _ _ => False) st := by
      have same : ∀ sw ∈ l, st.1.vnode sw = s.vnode sw := by
        intro sw mem
        refine first.other sw ?_
        rw [List.mem_singleton]
        rintro rfl
        exact nodup.1 mem
      have later := ih (s := st.1) (n := st.2) nodup.2 fun sw mem => by
        rw [same sw mem]
        exact small sw (List.mem_cons_of_mem _ mem)
      refine later.mono ?_ (fun _ _ no => no)
      intro _ st' rest
      have ws := inodeWrites_congr same
      refine ⟨?_, rest.mapdirty.trans first.mapdirty, rest.superdirty.trans first.superdirty, ?_, ?_⟩
      · rw [inodeWrites_cons, ← ws]
        exact first.issued.append rest.issued
      · intro sw mem
        rw [List.mem_cons, not_or] at mem
        rw [rest.other sw mem.2, first.other sw (by simpa using mem.1)]
      · rw [List.forall_mem_cons, rest.other sv nodup.1, inodeWrites_cons, NoneFails.append_iff, rest.clean, ws,
          first.issued.count, ← first.clean, List.forall_mem_singleton]
    rw [Faulty.sfsSyncVnodes, Prog.wlp_andThen_iff, Prog.wlp_attempt_iff]
    refine (wlp_sfsFsync (small sv List.mem_cons_self)).mono ?_ ?_
    · exact fun _ _ first => more first
    · exact fun _ _ first => more first

/-- The rule for the blocks of the map. -/
lemma wlp_sfsMapioWrite (k j : Nat) (inside : j + k ≤ bitblocks s.nblocks) :
    Prog.wlp (Faulty.sfsMapioWrite req k j)
      (fun _ st => Issued req s n (mapWrites s k j) st ∧ NoneFails req n (mapWrites s k j) ∧
        st.1 = { s with dev := st.1.dev }) (fun _ _ => True) (s, n) := by
  induction k generalizing s n j with
  | zero => exact ⟨.nil, .nil, rfl⟩
  | succ k ih =>
    have lt : s.nblocks < 2 ^ 32 := Block.word_lt ..
    have small : 2 + j < 2 ^ 32 := by
      rw [bitblocks] at inside
      omega
    have split : mapWrites s (k + 1) j = (2 + j, mapBlock s.freemap j) :: mapWrites s k (j + 1) := by
      rw [mapWrites, List.range'_succ]
      rfl
    rw [Faulty.sfsMapioWrite, Prog.wlp_andThen_iff]
    refine Prog.wlp_of_run (a := s) rfl ?_
    rw [Prog.wlp_andThen_iff]
    refine wlp_wblock_issued small ?_ fun _ _ _ => trivial
    intro dev works issued
    have inside' : j + 1 + k ≤ bitblocks s.nblocks := by omega
    refine (ih (s := { s with dev := dev }) (j + 1) inside').mono ?_ (fun _ _ _ => trivial)
    rintro _ st ⟨rest, none, state⟩
    rw [split]
    exact ⟨issued.append rest, NoneFails.append_iff.2 ⟨.single works _, none⟩, state⟩

/-- The rule for the map in `sfs_sync`. -/
lemma wlp_sfsSyncMap :
    Prog.wlp (Faulty.sfsSyncMap req)
      (fun _ st => Issued req s n (if s.freemapdirty then mapWrites s (bitblocks s.nblocks) 0 else []) st ∧
        NoneFails req n (if s.freemapdirty then mapWrites s (bitblocks s.nblocks) 0 else []) ∧
        st.1 = { s with dev := st.1.dev, freemapdirty := false }) (fun _ _ => True) (s, n) := by
  rw [Faulty.sfsSyncMap, Prog.wlp_andThen_iff]
  refine Prog.wlp_of_run (a := s) rfl ?_
  split_ifs with dirty
  · rw [Prog.wlp_andThen_iff]
    refine (wlp_sfsMapioWrite _ 0 (Nat.le_of_eq (Nat.zero_add _))).mono ?_ (fun _ _ _ => trivial)
    rintro _ st ⟨issued, none, state⟩
    refine Prog.wlp_of_run (t := ({ st.1 with freemapdirty := false }, st.2)) rfl ⟨?_, none, ?_⟩
    · exact ⟨issued.sect, issued.count, issued.vnodes, issued.super, issued.freemap⟩
    · dsimp only
      rw [state]
  · refine ⟨.nil, .nil, ?_⟩
    have clean : s.freemapdirty = false := by simpa using dirty
    rw [← clean]

/-- The rule for the superblock in `sfs_sync`. -/
lemma wlp_sfsSyncSuper :
    Prog.wlp (Faulty.sfsSyncSuper req)
      (fun _ st => Issued req s n (if s.superdirty then [(0, s.super)] else []) st ∧
        NoneFails req n (if s.superdirty then [(0, s.super)] else []) ∧
        st.1 = { s with dev := st.1.dev, superdirty := false }) (fun _ _ => True) (s, n) := by
  rw [Faulty.sfsSyncSuper, Prog.wlp_andThen_iff]
  refine Prog.wlp_of_run (a := s) rfl ?_
  split_ifs with dirty
  · rw [Prog.wlp_andThen_iff]
    refine wlp_wblock_issued (by decide) ?_ fun _ _ _ => trivial
    intro dev works issued
    refine Prog.wlp_of_run (t := ({ s with dev := dev, superdirty := false }, n + 1)) rfl ⟨?_, .single works _, rfl⟩
    exact ⟨issued.sect, issued.count, rfl, rfl, rfl⟩
  · refine ⟨.nil, .nil, ?_⟩
    have clean : s.superdirty = false := by simpa using dirty
    rw [← clean]

/-- A sync that succeeds has requested all its writes, and ignored the failure of inodes only. -/
structure Synchronized (req : Nat → Request) (s : SfsFs) (n : Nat) (st : SfsFs × Nat) : Prop where
  issued : Issued req s n (syncWrites s) st
  clean : (∀ sv ∈ s.vnodes, (st.1.vnode sv).dirty = false) ↔ NoneFails req n (syncWrites s)
  mapclean : st.1.freemapdirty = false
  superclean : st.1.superdirty = false

/-- The rule of `sfs_sync`. -/
lemma wlp_sfsSync (nodup : s.vnodes.Nodup) (small : ∀ sv ∈ s.vnodes, (s.vnode sv).ino < 2 ^ 32) :
    Prog.wlp (Faulty.sfsSync req) (fun _ => Synchronized req s n) (fun _ _ => True) (s, n) := by
  rw [Faulty.sfsSync, Prog.wlp_andThen_iff]
  refine Prog.wlp_of_run (a := s) rfl ?_
  rw [Prog.wlp_andThen_iff]
  refine (wlp_sfsSyncVnodes s.vnodes nodup small).mono ?_ (fun _ _ no => no.elim)
  rintro _ ⟨s₁, n₁⟩ visited
  have issued := visited.issued
  have size : s₁.nblocks = s.nblocks := congrArg (Block.word · 1) issued.super
  have map : mapWrites s₁ (bitblocks s₁.nblocks) 0 = mapWrites s (bitblocks s.nblocks) 0 := by
    rw [mapWrites, mapWrites, size, show s₁.freemap = s.freemap from issued.freemap]
  have mapdirty : s₁.freemapdirty = s.freemapdirty := visited.mapdirty
  have superdirty : s₁.superdirty = s.superdirty := visited.superdirty
  have super : s₁.super = s.super := issued.super
  rw [Prog.wlp_andThen_iff]
  refine wlp_sfsSyncMap.mono ?_ (fun _ _ _ => trivial)
  rintro _ ⟨s₂, n₂⟩ ⟨issued₂, none₂, state₂⟩
  have state₂ : s₂ = { s₁ with dev := s₂.dev, freemapdirty := false } := state₂
  have superdirty₂ : s₂.superdirty = s.superdirty := by
    rw [state₂]
    exact superdirty
  have super₂ : s₂.super = s.super := by
    rw [state₂]
    exact super
  refine wlp_sfsSyncSuper.mono ?_ (fun _ _ _ => trivial)
  rintro _ st ⟨issued₃, none₃, state₃⟩
  have count₂ : n₂ = n₁ + _ := issued₂.count
  have count : n₁ = n + _ := issued.count
  rw [map, mapdirty] at issued₂ none₂ count₂
  rw [superdirty₂, super₂] at issued₃ none₃
  have vnode : st.1.vnode = s₁.vnode := by
    rw [state₃]
    dsimp only
    rw [state₂]
  have both := issued₂.append issued₃
  refine ⟨issued.append both, ?_, ?_, ?_⟩
  · rw [vnode, visited.clean, syncWrites, NoneFails.append_iff, NoneFails.append_iff, ← count, ← count₂]
    exact (and_iff_left ⟨none₂, none₃⟩).symm
  · rw [state₃]
    dsimp only
    rw [state₂]
  · rw [state₃]

/-- When a sync that returned was honest. -/
lemma Synchronized.honest_iff {st : SfsFs × Nat} (h : Synchronized req s n st) :
    SyncHonest s st.1 ↔ (∀ w ∈ syncWrites s, st.1.dev.sect w.1 = w.2) ∧ NoneFails req n (syncWrites s) := by
  rw [← h.clean]
  constructor
  · intro honest
    refine ⟨fun w mem => ?_, honest.clean⟩
    rw [syncWrites, List.mem_append, List.mem_append] at mem
    obtain mem | mem | mem := mem
    · obtain ⟨sv, dirty, rfl⟩ := List.mem_map.1 mem
      obtain ⟨mem, dirty⟩ := List.mem_filter.1 dirty
      exact honest.inode sv mem dirty
    · split_ifs at mem with dirty
      · obtain ⟨j, range, rfl⟩ := List.mem_map.1 mem
        exact honest.map dirty j (by simpa using (List.mem_range'_1.1 range).2)
      · cases mem
    · split_ifs at mem with dirty
      · rw [List.mem_singleton.1 mem]
        exact honest.super dirty
      · cases mem
  · rintro ⟨all, clean⟩
    refine ⟨?_, ?_, ?_, clean, h.mapclean, h.superclean⟩
    · intro sv mem dirty
      refine all (_, _) (List.mem_append_left _ (List.mem_map.2 ⟨sv, List.mem_filter.2 ⟨mem, dirty⟩, rfl⟩))
    · intro dirty j lt
      refine all (_, _) (List.mem_append_right _ (List.mem_append_left _ ?_))
      rw [if_pos dirty]
      exact List.mem_map.2 ⟨j, List.mem_range'_1.2 ⟨Nat.zero_le _, by omega⟩, rfl⟩
    · intro dirty
      refine all (0, _) (List.mem_append_right _ (List.mem_append_right _ ?_))
      rw [if_pos dirty]
      exact List.mem_singleton_self _

/-- No block is written twice. -/
lemma Sound.nodup_syncWrites (h : Sound s N) : ((syncWrites s).map Prod.fst).Nodup := by
  have inodes (b : Nat) (mem : b ∈ (inodeWrites s s.vnodes).map Prod.fst) : ¬ volumeBlock s.nblocks b := by
    rw [inodeWrites, List.map_map] at mem
    obtain ⟨sv, dirty, rfl⟩ := List.mem_map.1 mem
    exact h.not_volumeBlock_inode (SfsFs.live_of_mem (List.mem_filter.1 dirty).1)
  have map (b : Nat) (mem : b ∈ (mapWrites s (bitblocks s.nblocks) 0).map Prod.fst) :
      2 ≤ b ∧ b < 2 + bitblocks s.nblocks := by
    rw [mapWrites, List.map_map] at mem
    obtain ⟨j, range, rfl⟩ := List.mem_map.1 mem
    have := (List.mem_range'_1.1 range).2
    dsimp only [Function.comp]
    omega
  rw [syncWrites, List.map_append, List.map_append, List.nodup_append, List.nodup_append]
  refine ⟨?_, ⟨?_, ?_, ?_⟩, ?_⟩
  · rw [inodeWrites, List.map_map]
    refine List.Nodup.map_on ?_ (h.table.nodup.filter _)
    intro sv mem sw mem' eq
    exact h.table.inj (List.mem_filter.1 mem).1 (List.mem_filter.1 mem').1 eq
  · split_ifs
    · rw [mapWrites, List.map_map]
      exact List.Nodup.map (fun j j' eq => Nat.add_left_cancel eq) List.nodup_range'
    · exact List.nodup_nil
  · split_ifs
    · exact List.nodup_singleton _
    · exact List.nodup_nil
  · intro b mem c mem'
    split_ifs at mem mem'
    · have := map b mem
      rw [List.map_singleton, List.mem_singleton] at mem'
      dsimp only at mem'
      omega
    · cases mem'
    · cases mem
    · cases mem
  · rintro b mem c mem' rfl
    refine inodes b mem ?_
    rw [List.mem_append] at mem'
    obtain mem' | mem' := mem'
    · split_ifs at mem'
      · exact .inr (.inl (map b mem'))
      · cases mem'
    · split_ifs at mem'
      · rw [List.map_singleton, List.mem_singleton] at mem'
        exact .inl mem'
      · cases mem'

/-- A request that did not fail arrived or changed nothing. -/
lemma Request.arrives_iff {r : Request} {p : Prop} : (r = .done ∨ r = .lost ∧ p) ↔ (r = .done ∨ p) ∧ ¬ r.Fails := by
  cases r with
  | done => simp [Request.Fails]
  | lost => simp [Request.Fails]
  | fails => simp [Request.Fails]

/-- A sync that succeeds is honest if each of its writes has been carried out, or was lost and not necessary. -/
theorem sfs_sync_honest_iff (h : Sound s N) {st : SfsFs × Nat} (run : Faulty.sfsSync req (s, n) = .ok (.ok (), st)) :
    SyncHonest s st.1 ↔ ∀ i b data, (syncWrites s)[i]? = some (b, data) →
      req (n + i) = .done ∨ req (n + i) = .lost ∧ s.dev.sect b = data := by
  have small : s.nblocks < 2 ^ 32 := Block.word_lt ..
  have sync := (wlp_sfsSync h.table.nodup fun sv mem => (h.inode_lt (SfsFs.live_of_mem mem)).trans small).of_ok run
  rw [sync.honest_iff, sync.issued.sect, afterWrites_iff h.nodup_syncWrites]
  constructor
  · rintro ⟨all, none⟩ i b data here
    exact Request.arrives_iff.2 ⟨all i (b, data) here, none i (List.getElem?_eq_some_iff.1 here).1⟩
  · intro all
    refine ⟨fun i w here => (Request.arrives_iff.1 (all i w.1 w.2 here)).1, fun i lt => ?_⟩
    exact (Request.arrives_iff.1 (all i _ _ (List.getElem?_eq_getElem lt))).2

end

/-- A sync whose writes are all carried out. -/
theorem sfs_sync_honest_done : ∃ s N st, Core s N ∧ Faulty.sfsSync Faulty.allDone (s, 0) = .ok (.ok (), st) ∧
    SyncHonest s st.1 := by
  obtain ⟨s, N, sv, new⟩ := exists_new_file
  have sync := new.core.wp_sfsSync (E := fun _ _ => False)
  obtain ⟨r, s', run, -, err⟩ := Prog.wp_iff.1 sync
  cases r with
  | error e => exact (err e rfl).elim
  | ok =>
    obtain ⟨n, run⟩ := Faulty.sfsSync_erases.exists_run run 0
    exact ⟨s, N, _, new.core, run, (sfs_sync_honest_iff new.core.sound run).2 fun _ _ _ _ => .inl rfl⟩

section

variable {r : Request}

/-- A superblock that is clean is not written. -/
lemma wp_sfsSyncSuper_clean {req : Nat → Request} {t : SfsFs × Nat} (clean : t.1.superdirty = false) :
    Prog.wp (Faulty.sfsSyncSuper req) (fun _ _ => True) (fun _ _ => False) t := by
  rw [Faulty.sfsSyncSuper, Prog.wp_andThen_iff]
  refine Prog.wp_of_run (a := t.1) rfl ?_
  rw [if_neg (by rw [clean]; exact Bool.false_ne_true), Prog.wp_pure_iff]
  trivial

/-- After the first write, a map of one block is written without fail. -/
lemma wp_sfsSyncMap_one {t : SfsFs} (geom : t.dev.blocks = t.nblocks) (one : bitblocks t.nblocks = 1)
    (two : 2 < t.nblocks) (clean : t.superdirty = false) :
    Prog.wp (Faulty.sfsSyncMap fun i => if i = 0 then r else .done) (fun _ st => st.1.superdirty = false)
      (fun _ _ => False) (t, 1) := by
  rw [Faulty.sfsSyncMap, Prog.wp_andThen_iff]
  refine Prog.wp_of_run (a := t) rfl ?_
  split_ifs
  · rw [one, Faulty.sfsMapioWrite, Prog.wp_andThen_iff, Prog.wp_andThen_iff]
    refine Prog.wp_of_run (a := t) rfl ?_
    rw [Prog.wp_andThen_iff]
    refine Faulty.wp_wblock geom two ?_ (fun no => by cases no) fun e ne no => by cases no
    intro _
    exact Prog.wp_of_run rfl clean
  · exact clean

/-- A sync on the small disk, whose first write, that of the inode, ends with `r`, succeeds. -/
lemma OnlyNew.wp_sfsSync {s : SfsFs} {N : Nat → Prop} {sv : Nat} (new : OnlyNew s N sv) (r : Request) :
    Prog.wp (Faulty.sfsSync fun i => if i = 0 then r else .done) (fun _ _ => True) (fun _ _ => False) (s, 0) := by
  have core := new.core
  have inside := core.inode_lt (SfsFs.live_of_mem new.mem)
  have blocks : s.dev.blocks = s.nblocks := core.geom.dev
  have one : bitblocks s.nblocks = 1 := by
    rw [new.nblocks]
    decide
  have two : 2 < s.nblocks := by
    rw [new.nblocks]
    decide
  have rest (t : SfsFs) (geom : t.dev.blocks = t.nblocks) (size : t.nblocks = s.nblocks)
      (clean : t.superdirty = false) :
      Prog.wp (do
          Faulty.sfsSyncMap fun i => if i = 0 then r else .done
          Faulty.sfsSyncSuper fun i => if i = 0 then r else .done) (fun _ _ => True) (fun _ _ => False) (t, 1) := by
    rw [Prog.wp_andThen_iff]
    have map := wp_sfsSyncMap_one (r := r) geom (by rw [size]; exact one) (by rw [size]; exact two) clean
    exact map.mono (fun _ _ clean => wp_sfsSyncSuper_clean clean) fun _ _ no => no
  rw [Faulty.sfsSync, Prog.wp_andThen_iff]
  refine Prog.wp_of_run (a := s) rfl ?_
  rw [new.vnodes, Faulty.sfsSyncVnodes, Faulty.sfsSyncVnodes, Prog.wp_andThen_iff, Prog.wp_andThen_iff,
    Prog.wp_attempt_iff, Faulty.sfsFsync, Faulty.sfsSyncInode, Prog.wp_andThen_iff]
  refine Prog.wp_of_run (a := s.vnode sv) rfl ?_
  rw [if_pos new.dirty, Prog.wp_andThen_iff]
  have clean := core.disk.superclean
  refine Faulty.wp_wblock blocks inside ?_ ?_ ?_
  · exact fun _ => Prog.wp_of_run rfl (rest _ blocks rfl clean)
  · exact fun _ => Prog.wp_of_run rfl (rest _ blocks rfl clean)
  · -- the error is ignored
    exact fun _ _ _ => rest s blocks rfl clean

end

/-- The inode of a new file is not written, and the sync succeeds: on an `lhd`, where the write that fails is lost,
with nothing dirty any more; and on a disk that reports the error, with the inode still dirty. -/
theorem sfs_sync_swallows : ∃ s N sv, Core s N ∧ sv ∈ s.vnodes ∧ (s.vnode sv).dirty = true ∧
    (sfsWblock (fun tries _ => tries != 0) s.dev (s.vnode sv).i.toBlock (s.vnode sv).ino = .ok (0, s.dev) ∧
      ∃ st, Faulty.sfsSync (fun i => if i = 0 then .lost else .done) (s, 0) = .ok (.ok (), st) ∧
        (st.1.vnode sv).dirty = false ∧ ¬ SyncHonest s st.1) ∧
    ∃ st, Faulty.sfsSync (fun i => if i = 0 then .fails eio (by decide) else .done) (s, 0) = .ok (.ok (), st) ∧
      (st.1.vnode sv).dirty = true ∧ ¬ SyncHonest s st.1 := by
  obtain ⟨s, N, sv, new⟩ := exists_new_file
  have core := new.core
  have live : s.Live N (s.vnode sv).ino := SfsFs.live_of_mem new.mem
  have blocks : s.dev.blocks = s.nblocks := core.geom.dev
  have small : s.nblocks < 2 ^ 32 := Block.word_lt ..
  -- the sector of the inode holds zeros, and the type of the file is not zero
  have other : s.dev.sect (s.vnode sv).ino ≠ (s.vnode sv).i.toBlock := by
    intro same
    rw [new.cleared] at same
    have inode : s.inode (s.vnode sv).ino = SfsInode.ofBlock Block.zeros := by
      rw [core.table.inode_eq new.mem, same, SfsInode.ofBlock_toBlock]
    have type : (SfsInode.ofBlock Block.zeros).type = typeFile := by
      rw [← inode]
      exact congrArg File.type new.file
    exact absurd type (by decide)
  have first : (syncWrites s)[0]? = some ((s.vnode sv).ino, (s.vnode sv).i.toBlock) := by
    rw [syncWrites, new.vnodes, inodeWrites_of_dirty new.dirty]
    rfl
  have ends (r : Request) (ne : r ≠ .done) : ∃ st, Faulty.sfsSync (fun i => if i = 0 then r else .done) (s, 0) =
      .ok (.ok (), st) ∧ ((st.1.vnode sv).dirty = false ↔ ¬ r.Fails) ∧ ¬ SyncHonest s st.1 := by
    obtain ⟨out, st, run, -, err⟩ := Prog.wp_iff.1 (new.wp_sfsSync r)
    cases out with
    | error e => exact (err e rfl).elim
    | ok =>
      have sync := (wlp_sfsSync core.table.nodup fun sw mem =>
        (core.inode_lt (SfsFs.live_of_mem mem)).trans small).of_ok run
      refine ⟨st, run, ?_, fun honest => ?_⟩
      · have clean := sync.clean
        rw [new.vnodes, List.forall_mem_singleton] at clean
        rw [clean]
        constructor
        · exact fun none => none 0 (List.getElem?_eq_some_iff.1 first).1
        · intro works i lt
          rw [Nat.zero_add]
          dsimp only
          split_ifs
          · exact works
          · exact id
      · have all := (sync.honest_iff.1 honest).1
        rw [sync.issued.sect, afterWrites_iff core.sound.nodup_syncWrites] at all
        obtain done | same := all 0 _ first
        · exact ne done
        · exact other same
  obtain ⟨st, run, clean, dishonest⟩ := ends .lost (fun no => by cases no)
  obtain ⟨st', run', clean', dishonest'⟩ := ends (.fails eio (by decide)) (fun no => by cases no)
  refine ⟨s, N, sv, core, new.mem, new.dirty, ⟨?_, st, run, clean.2 id, dishonest⟩, st', run', ?_, dishonest'⟩
  · exact sfsWblock_lost _ (blocks ▸ core.inode_lt live) (blocks ▸ small) rfl
  · rw [← Bool.not_eq_false, clean']
    exact not_not.2 trivial

end PDS.Sfs
