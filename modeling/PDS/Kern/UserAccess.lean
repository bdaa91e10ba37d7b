import PDS.Kern.UserMemInv
import PDS.Lib.Table

/-!
# Accesses to user memory, one by one

`vm_fault` never replaces an entry of the TLB: an access to a page that the TLB does not have needs an
entry that is not in use, and fails otherwise. Which accesses succeed depends only on the pages of the TLB
and on when the thread is preempted; `Mach.table` is the TLB seen as a table that never evicts, and
`translate_table` says that an access through the TLB is an access to that table.
-/

namespace PDS.Kern
open Word Extent

namespace Tlb

/-- An entry is in use. -/
def Valid (tlb : Tlb) (i : Fin numTlb) : Prop := (tlb i).elo &&& tlbloValid ≠ 0

instance (tlb : Tlb) : DecidablePred tlb.Valid := fun _ => inferInstanceAs (Decidable (_ ≠ _))

/-- The pages that the TLB maps. -/
def pages (tlb : Tlb) : Finset Nat := (Finset.univ.filter tlb.Valid).image fun i => (tlb i).ehi &&& pageFrame

/-- The number of entries that are not in use. -/
def room (tlb : Tlb) : Nat := (Finset.univ.filter fun i => ¬ tlb.Valid i).card

variable {tlb : Tlb} {va pa : Nat} {i : Fin numTlb}

/-- The pages of a table are those of its valid entries. -/
lemma mem_pages {page : Nat} : page ∈ tlb.pages ↔ ∃ i, tlb.Valid i ∧ (tlb i).ehi &&& pageFrame = page := by
  simp [pages]

/-- A probe finds an address whose page is in the table. -/
lemma probe_isSome_iff : (tlb.probe va).isSome ↔ va &&& pageFrame ∈ tlb.pages := by
  rw [mem_pages, probe, List.find?_isSome]
  constructor
  · rintro ⟨e, h, p⟩
    obtain ⟨i, -, rfl⟩ := List.mem_map.1 h
    simp only [Bool.and_eq_true, beq_iff_eq, bne_iff_ne] at p
    exact ⟨i, p.2, p.1⟩
  · rintro ⟨i, valid, page⟩
    refine ⟨tlb i, List.mem_map.2 ⟨i, List.mem_finRange i, rfl⟩, ?_⟩
    simp only [Bool.and_eq_true, beq_iff_eq, bne_iff_ne]
    exact ⟨page, valid⟩

/-- The slot found is free. -/
lemma unused_some (h : tlb.unused = some i) : ¬ tlb.Valid i := by
  have p := List.find?_some h
  rw [beq_iff_eq] at p
  exact not_not.2 p

/-- If no slot is found there is no room. -/
lemma unused_none (h : tlb.unused = none) : tlb.room = 0 := by
  rw [room, Finset.card_eq_zero, Finset.filter_eq_empty_iff]
  intro i _
  have p := List.find?_eq_none.1 h i (List.mem_finRange i)
  rw [beq_iff_eq] at p
  exact not_not.2 p

/-- An entry that `vm_fault` writes is valid. -/
lemma entry_valid (page pa : Nat) : (⟨page, pa ||| tlbloDirty ||| tlbloValid⟩ : TlbEntry).elo &&& tlbloValid ≠ 0 := by
  have v : tlbloValid &&& tlbloValid ≠ 0 := by decide
  rw [Nat.and_or_distrib_right]
  intro h
  exact v (Nat.or_eq_zero_iff.1 h).2

/-- Entering a page takes one entry. -/
lemma update_valid (free : ¬ tlb.Valid i) {e : TlbEntry} (valid : e.elo &&& tlbloValid ≠ 0) (j : Fin numTlb) :
    Valid (Function.update tlb i e) j ↔ j = i ∨ tlb.Valid j := by
  by_cases h : j = i
  · subst h
    rw [Valid, Function.update_self]
    exact iff_of_true valid (.inl rfl)
  · rw [Valid, Function.update_of_ne h]
    exact (or_iff_right h).symm

/-- A free slot that is filled leaves one less. -/
lemma update_room (free : ¬ tlb.Valid i) {e : TlbEntry} (valid : e.elo &&& tlbloValid ≠ 0) :
    tlb.room = room (Function.update tlb i e) + 1 := by
  have one : (Finset.univ.filter fun j => ¬ tlb.Valid j)
      = insert i (Finset.univ.filter fun j => ¬ Valid (Function.update tlb i e) j) := by
    ext j
    simp only [Finset.mem_filter, Finset.mem_univ, true_and, Finset.mem_insert, update_valid free valid,
      not_or]
    by_cases h : j = i
    · subst h
      exact iff_of_true free (.inl rfl)
    · exact ⟨fun nv => .inr ⟨h, nv⟩, fun o => (o.resolve_left h).2⟩
  rw [room, one, Finset.card_insert_of_notMem, room]
  simp [update_valid free valid]

/-- A free slot that is filled adds its page. -/
lemma update_pages (free : ¬ tlb.Valid i) {e : TlbEntry} (valid : e.elo &&& tlbloValid ≠ 0) :
    pages (Function.update tlb i e) = insert (e.ehi &&& pageFrame) tlb.pages := by
  ext page
  rw [Finset.mem_insert, mem_pages, mem_pages]
  constructor
  · rintro ⟨j, vj, rfl⟩
    by_cases h : j = i
    · subst h
      rw [Function.update_self]
      exact .inl rfl
    · rw [Function.update_of_ne h]
      exact .inr ⟨j, ((update_valid free valid j).1 vj).resolve_left h, rfl⟩
  · rintro (rfl | ⟨j, vj, rfl⟩)
    · exact ⟨i, (update_valid free valid i).2 (.inl rfl), by rw [Function.update_self]⟩
    · have h : j ≠ i := by
        rintro rfl
        exact free vj
      exact ⟨j, (update_valid free valid j).2 (.inr vj), by rw [Function.update_of_ne h]⟩

/-- The reset table has no valid entry. -/
lemma asActivate_valid (i : Fin numTlb) : ¬ asActivate.Valid i := not_not.2 (Nat.zero_and _)

/-- The reset table has no page. -/
lemma asActivate_pages : asActivate.pages = ∅ := by
  rw [pages, Finset.image_eq_empty, Finset.filter_eq_empty_iff]
  exact fun i _ => asActivate_valid i

/-- The reset table has room everywhere. -/
lemma asActivate_room : asActivate.room = numTlb := by
  rw [room, Finset.filter_true_of_mem fun i _ => asActivate_valid i, Finset.card_univ, Fintype.card_fin]

end Tlb

/-- What `vm_fault` does for a page that is mapped: it enters the page if there is room. -/
lemma vmFault_table {as : AddrSpace} (tlb : Tlb) {va pa faulttype : Nat} (t : as.Translates va pa)
    (ft : faulttype = vmFaultRead ∨ faulttype = vmFaultWrite) :
    (vmFault (some as) tlb faulttype va = .ok (tlb, efault) ∧ tlb.room = 0) ∨
    (∃ tlb' : Tlb, vmFault (some as) tlb faulttype va = .ok (tlb', 0) ∧ tlb.room = tlb'.room + 1 ∧
      tlb'.pages = insert (va &&& pageFrame) tlb.pages) := by
  obtain ⟨su, look, al⟩ := AddrSpace.translates_iff.1 t
  have set : as.assertSetUp = .ok () := AddrSpace.assertSetUp_ok_iff.2 su
  have ro : faulttype ≠ vmFaultReadonly := by
    rcases ft with rfl | rfl <;> decide
  simp only [vmFault, if_neg ro, if_neg (not_not.2 ft), set, ok_bind, look, kassert_pos al]
  cases un : tlb.unused with
  | none => exact .inl ⟨rfl, Tlb.unused_none un⟩
  | some i =>
    have free := Tlb.unused_some un
    have valid := Tlb.entry_valid (va &&& pageFrame) pa
    refine .inr ⟨_, rfl, Tlb.update_room free valid, ?_⟩
    rw [Tlb.update_pages free valid, Nat.and_assoc, Nat.and_self]

namespace Mach

variable {m m' : Mach} {as : AddrSpace} {va pa faulttype : Nat}

/-- The TLB and the clock, as far as accesses depend on them. -/
def table (m : Mach) : Table Nat := ⟨m.tlb.pages, m.tlb.room, m.clock⟩

/-- A preemption acts on the table. -/
lemma tick_table : m.tick.table = m.table.tick numTlb m.preempted := by
  have clock : m.table.clock = m.clock := rfl
  rw [tick, Table.tick, clock]
  cases m.preempted m.clock with
  | true =>
    simp only [if_true, table, Tlb.asActivate_pages, Tlb.asActivate_room]
  | false => rfl

/-- An access through the TLB, as an access to the table. -/
def access (m : Mach) (va : Nat) : Option (Table Nat) :=
  m.table.access numTlb m.preempted (va &&& pageFrame)

/-- An access to a mapped page succeeds exactly when the table serves it. -/
lemma translate_table (us : m.User as) (low : va < kseg0) (t : as.Translates va pa)
    (ft : faulttype = vmFaultRead ∨ faulttype = vmFaultWrite) :
    (∃ m', m.translate faulttype va = .ok (m', some (pa + va % pageSize)) ∧ m'.phys = m.phys ∧
      m'.User as ∧ m'.preempted = m.preempted ∧ m.access va = some m'.table) ∨
    (∃ m', m.translate faulttype va = .ok (m', none) ∧ m'.phys = m.phys ∧ m'.User as ∧
      m'.preempted = m.preempted ∧ m.access va = none) := by
  have high : ¬ (kseg1 ≤ va ∧ va < kseg2) := by
    simp only [kseg0, kseg1] at low ⊢
    omega
  have ut := us.tick
  have through : ∀ {tlb : Tlb} {e : TlbEntry}, tlb.Consistent as → tlb.probe va = some e →
      through e faulttype va = .ok (pa + va % pageSize) := by
    intro tlb e cons probe
    obtain ⟨i, rfl, page, valid⟩ := Tlb.probe_some probe
    obtain ⟨t', dirty⟩ := cons i valid
    rw [Mach.through, if_neg (fun h => dirty h.2), (t'.congr page.symm).unique t]
  rw [translate, if_neg (fun h => absurd h.1 (by omega)), if_neg high, access, Table.access, ← tick_table,
    Table.enter]
  cases probe : m.tick.tlb.probe va with
  | some e =>
    left
    have has : va &&& pageFrame ∈ m.tick.table.keys := Tlb.probe_isSome_iff.1 (by rw [probe]; rfl)
    refine ⟨m.tick, ?_, rfl, ut, rfl, if_pos has⟩
    simp only [probe, through ut.tlb probe, ok_bind]
  | none =>
    have new : va &&& pageFrame ∉ m.tick.table.keys := by
      rw [table, ← Tlb.probe_isSome_iff, probe]
      exact Bool.false_ne_true
    rw [if_neg new]
    obtain ⟨fault, full⟩ | ⟨tlb, fault, room, pages⟩ := vmFault_table m.tick.tlb t ft
    · right
      refine ⟨m.tick, ?_, rfl, ut, rfl, if_pos full⟩
      simp only [probe, ut.space, fault, ok_bind, ne_eq, show efault ≠ 0 by decide, not_false_eq_true,
        if_true]
      rw [← ut.space]
    · left
      have cons := ut.tlb.vmFault fault
      have probe' : (tlb.probe va).isSome := by
        rw [Tlb.probe_isSome_iff, pages]
        exact Finset.mem_insert_self _ _
      obtain ⟨e, he⟩ := Option.isSome_iff_exists.1 probe'
      refine ⟨{ m.tick with tlb := tlb }, ?_, rfl, ⟨ut.space, cons⟩, rfl, ?_⟩
      · simp only [probe, ut.space, fault, ok_bind, ne_eq, not_true, if_false, he, through cons he]
      · have ne : m.tick.table.room ≠ 0 := by
          rw [table, room]
          exact Nat.succ_ne_zero _
        rw [if_neg ne]
        simp only [table, pages, room, Nat.add_sub_cancel]

/-- The state of the table after accesses to the given addresses, if all of them succeed. -/
def serve (m : Mach) (vas : List Nat) : Option (Table Nat) :=
  m.table.run numTlb m.preempted (vas.map (· &&& pageFrame))

/-- With nothing to access the table stays. -/
@[simp] lemma serve_nil : m.serve [] = some m.table := rfl

/-- The accesses are served in order. -/
lemma serve_cons {vas : List Nat} (e : m.access va = some m'.table) (pre : m'.preempted = m.preempted) :
    m.serve (va :: vas) = m'.serve vas := by
  rw [serve, List.map_cons, Table.run_cons, ← access, e, serve, pre]
  rfl

/-- The first access that fails ends them. -/
lemma serve_cons_none {vas : List Nat} (e : m.access va = none) : m.serve (va :: vas) = none := by
  rw [serve, List.map_cons, Table.run_cons, ← access, e]
  rfl

/-- Accesses served in two groups. -/
lemma serve_append {vas vas' : List Nat} (e : m.serve vas = some m'.table)
    (pre : m'.preempted = m.preempted) : m.serve (vas ++ vas') = m'.serve vas' := by
  rw [serve, List.map_append, Table.run_append, ← serve, e, serve, pre]
  rfl

/-- A failure in the first group. -/
lemma serve_append_none {vas vas' : List Nat} (e : m.serve vas = none) : m.serve (vas ++ vas') = none := by
  rw [serve, List.map_append, Table.run_append, ← serve, e]
  rfl

end Mach

/-- User memory outside of a block is unchanged. -/
def AddrSpace.Keeps (as : AddrSpace) (mem mem' : Pmem) (b : Block) : Prop :=
  ∀ va x, va < 2 ^ 32 → ¬ b.Has va → as.Byte mem va x → as.Byte mem' va x

namespace Mach

variable {m m' : Mach} {as : AddrSpace} {va pa : Nat}

/-- A store through a translated address: what happens to the table. -/
lemma store_table {b : UInt8} (us : m.User as) (low : va < kseg0) (t : as.Translates va pa) :
    (∃ m', m.store va b = .ok (m', true) ∧ m'.preempted = m.preempted ∧ m.access va = some m'.table) ∨
    (∃ m', m.store va b = .ok (m', false) ∧ m'.phys = m.phys ∧ m'.User as ∧
      m'.preempted = m.preempted ∧ m.access va = none) := by
  obtain ⟨m', e, phys, us', pre, acc⟩ | ⟨m', e, phys, us', pre, acc⟩ := translate_table us low t (.inr rfl)
  · left
    simp only [store, e, ok_bind]
    exact ⟨_, rfl, pre, acc⟩
  · right
    simp only [store, e, ok_bind]
    exact ⟨_, rfl, phys, us', pre, acc⟩

/-- Bytes are stored until an access fails. -/
lemma storeBytes_table {bytes : List UInt8} (us : m.User as) (bk : as.Backed)
    (low : va + bytes.length ≤ kseg0)
    (tr : ∀ x, va ≤ x → x < va + bytes.length → ∃ pa, as.Translates x pa) :
    (∃ m', m.storeBytes va bytes = .ok (m', true) ∧ m'.preempted = m.preempted ∧
      m.serve (List.range' va bytes.length) = some m'.table) ∨
    (∃ m' k, m.storeBytes va bytes = .ok (m', false) ∧ k < bytes.length ∧ m'.User as ∧
      m'.preempted = m.preempted ∧ m.serve (List.range' va bytes.length) = none ∧
      as.Keeps m.phys.mem m'.phys.mem ⟨va, k⟩) := by
  induction bytes generalizing m va with
  | nil => exact .inl ⟨m, rfl, rfl, rfl⟩
  | cons b bs ih =>
    rw [List.length_cons] at low tr ⊢
    obtain ⟨pa, t⟩ := tr va (le_refl _) (by omega)
    have next : wadd 32 va 1 = va + 1 := wadd_of_lt (by simp only [kseg0] at low; omega)
    rw [List.range'_succ]
    obtain ⟨m₁, e, pre, acc⟩ | ⟨m₁, e, phys, us₁, pre, acc⟩ := store_table (b := b) us (by omega) t
    · obtain ⟨us₁, -, keep₁⟩ := store_spec us bk (by omega) e
      simp only [storeBytes, e, ok_bind, if_true, next]
      rw [serve_cons acc pre]
      obtain ⟨m', e', pre', srv⟩ | ⟨m', k, e', hk, us', pre', srv, keep⟩ :=
        @ih m₁ (va + 1) us₁ (by omega) (fun x h h' => tr x (by omega) (by omega))
      · exact .inl ⟨m', e', pre'.trans pre, srv⟩
      · refine .inr ⟨m', k + 1, e', by omega, us', pre'.trans pre, srv, ?_⟩
        intro x y lt out h
        simp only [Block.Has, Block.stop] at out
        refine keep x y lt ?_ (keep₁ x y lt (by omega) h)
        simp only [Block.Has, Block.stop]
        omega
    · simp only [storeBytes, e, ok_bind, Bool.false_eq_true, if_false]
      refine .inr ⟨m₁, 0, rfl, by omega, us₁, pre, serve_cons_none acc, ?_⟩
      intro x y lt out h
      rwa [phys]

/-- Bytes that are stored have been served one after the other. -/
lemma storeBytes_served {bytes : List UInt8} (us : m.User as) (bk : as.Backed) (low : va + bytes.length ≤ kseg0)
    (e : m.storeBytes va bytes = .ok (m', true)) :
    m'.preempted = m.preempted ∧ m.serve (List.range' va bytes.length) = some m'.table := by
  obtain ⟨-, stored, -⟩ := storeBytes_spec us bk low e
  have tr : ∀ x, va ≤ x → x < va + bytes.length → ∃ pa, as.Translates x pa := by
    intro x le lt
    obtain ⟨k, rfl⟩ := Nat.exists_eq_add_of_le le
    obtain ⟨pa, t, -⟩ := stored k (by omega)
    exact ⟨pa, t⟩
  obtain ⟨m₁, e₁, pre, srv⟩ | ⟨m₁, k, e₁, -⟩ := storeBytes_table us bk low tr
  · cases e.symm.trans e₁
    exact ⟨pre, srv⟩
  · cases e.symm.trans e₁

end Mach

end PDS.Kern
