import PDS.Kern.UserMem
import PDS.Kern.AddrspaceLoad

/-!
# User memory

The memory of a prepared address space as its user addresses show it. `AddrSpace.Byte as mem va b` says
that `b` is the byte found through the translation of `vm_fault` at `va`; distinct user addresses have
distinct bytes of physical memory behind them (`Backed.byte_inj`), so a store through the TLB changes one
user address and leaves the others alone (`store_spec`).

The entries of the TLB agree with `vm_fault` (`Tlb.Consistent`): `vm_fault` wrote them, or they are
invalid.
-/

namespace PDS.Kern
open Word Extent

/-- An address is its page and its place in the page. -/
lemma and_pageFrame_add {va : Nat} (h : va < 2 ^ 32) : (va &&& pageFrame) + va % pageSize = va := by
  rw [and_pageFrame h, Nat.mul_comm]
  exact Nat.div_add_mod va pageSize

namespace AddrSpace

variable {as : AddrSpace} {va va' pa pa' : Nat}

/-- Addresses of one page are translated alike. -/
lemma Translates.congr (t : as.Translates va pa) (h : va' &&& pageFrame = va &&& pageFrame) :
    as.Translates va' pa := by
  rw [translates_iff] at t ⊢
  rwa [h]

/-- A page has one frame. -/
lemma Translates.unique (t : as.Translates va pa) (t' : as.Translates va pa') : pa' = pa := by
  rw [translates_iff] at t t'
  exact Option.some.inj (t'.2.1.symm.trans t.2.1)

/-- Frames are aligned. -/
lemma Translates.aligned (t : as.Translates va pa) : pageSize ∣ pa := by
  rw [translates_iff] at t
  rw [← t.2.2]
  exact pageSize_dvd_and_pageFrame _

/-- Pages with the same frame are the same page. -/
lemma Backed.frame_inj (bk : as.Backed) (t : as.Translates va pa) (t' : as.Translates va' pa) :
    va' &&& pageFrame = va &&& pageFrame := by
  obtain ⟨r, off, -, hv, hp, le⟩ := t.frame (fun r _ => bk.top r)
  obtain ⟨r', off', -, hv', hp', le'⟩ := t'.frame (fun r _ => bk.top r)
  have pos : 0 < pageSize := by decide
  by_cases same : r' = r
  · subst same
    omega
  · have ap := bk.apart r' r same
    simp only [Block.Apart, block, Block.stop] at ap
    omega

/-- The byte at a user address. -/
def Byte (as : AddrSpace) (mem : Pmem) (va : Nat) (b : UInt8) : Prop :=
  ∃ pa, as.Translates va pa ∧ mem (pa + va % pageSize) = b

/-- Distinct user addresses are distinct in physical memory. -/
lemma Backed.byte_inj (bk : as.Backed) (h : va < 2 ^ 32) (h' : va' < 2 ^ 32) (t : as.Translates va pa)
    (t' : as.Translates va' pa') (e : pa' + va' % pageSize = pa + va % pageSize) : va' = va := by
  have pos : 0 < pageSize := by decide
  have lt := Nat.mod_lt va pos
  have lt' := Nat.mod_lt va' pos
  obtain ⟨k, rfl⟩ := t.aligned
  obtain ⟨k', rfl⟩ := t'.aligned
  have eq := congrArg (· / pageSize) e
  simp only [Nat.mul_add_div pos, Nat.div_eq_of_lt lt, Nat.div_eq_of_lt lt', Nat.add_zero] at eq
  subst eq
  have page := bk.frame_inj t t'
  rw [← and_pageFrame_add h, ← and_pageFrame_add h']
  omega

end AddrSpace

/-- The valid entries of the TLB are translations of `vm_fault`. -/
def Tlb.Consistent (tlb : Tlb) (as : AddrSpace) : Prop :=
  ∀ i, (tlb i).elo &&& tlbloValid ≠ 0 →
    as.Translates (tlb i).ehi ((tlb i).elo &&& tlbloPpage) ∧ (tlb i).elo &&& tlbloDirty ≠ 0

/-- The reset table disagrees with no address space. -/
lemma asActivate_consistent (as : AddrSpace) : asActivate.Consistent as := by
  intro i h
  exact absurd (Nat.zero_and _) h

/-- A probe that succeeds names the entry. -/
lemma Tlb.probe_some {tlb : Tlb} {va : Nat} {e : TlbEntry} (h : tlb.probe va = some e) :
    ∃ i, tlb i = e ∧ e.ehi &&& pageFrame = va &&& pageFrame ∧ e.elo &&& tlbloValid ≠ 0 := by
  obtain ⟨i, -, hi⟩ := List.mem_map.1 (List.mem_of_find?_eq_some h)
  have p := List.find?_some h
  simp only [Bool.and_eq_true, beq_iff_eq, bne_iff_ne] at p
  exact ⟨i, hi, p⟩

/-- `vm_fault` keeps the TLB consistent. -/
lemma Tlb.Consistent.vmFault {tlb tlb' : Tlb} {as : AddrSpace} {faulttype va result : Nat}
    (cons : tlb.Consistent as) (e : vmFault (some as) tlb faulttype va = .ok (tlb', result)) :
    tlb'.Consistent as := by
  obtain ⟨-, rfl⟩ | ⟨-, su, pa, i, look, al, -, rfl⟩ := AddrSpace.vmFault_ok e
  · exact cons
  · intro j
    by_cases h : j = i
    · subst h
      rw [Function.update_self]
      intro _
      rw [AddrSpace.tlb_entry_frame al]
      refine ⟨AddrSpace.translates_iff.2 ⟨su, ?_, al⟩, ?_⟩
      · rwa [Nat.and_assoc, Nat.and_self]
      · have d : tlbloDirty &&& tlbloDirty ≠ 0 := by decide
        rw [Nat.and_or_distrib_right, Nat.and_or_distrib_right]
        intro h
        exact d (Nat.or_eq_zero_iff.1 (Nat.or_eq_zero_iff.1 h).1).2
    · rw [Function.update_of_ne h]
      exact cons j

namespace Mach

/-- The address space of the current thread, with a TLB that belongs to it. -/
structure User (m : Mach) (as : AddrSpace) : Prop where
  space : m.as = some as
  tlb : m.tlb.Consistent as

variable {m m' : Mach} {as : AddrSpace} {va faulttype : Nat}

/-- A preemption keeps the machine the user's. -/
lemma User.tick (us : m.User as) : m.tick.User as := by
  refine ⟨us.space, ?_⟩
  simp only [Mach.tick]
  split
  · exact asActivate_consistent as
  · exact us.tlb

/-- An entry of the table leads where the address space says. -/
lemma User.through {tlb : Tlb} (cons : tlb.Consistent as) {e : TlbEntry} {p : Nat}
    (probe : tlb.probe va = some e) (h : through e faulttype va = .ok p) :
    ∃ pa, as.Translates va pa ∧ p = pa + va % pageSize := by
  obtain ⟨i, rfl, page, valid⟩ := Tlb.probe_some probe
  rw [Mach.through] at h
  split at h
  · cases h
  · cases h
    exact ⟨_, (cons i valid).1.congr page.symm, rfl⟩

/-- An access to a user address finds the byte behind its translation, or does not succeed. -/
lemma translate_spec {p : Option Nat} (us : m.User as) (low : va < kseg0)
    (e : m.translate faulttype va = .ok (m', p)) :
    m'.phys = m.phys ∧ m'.User as ∧
      ∀ x ∈ p, ∃ pa, as.Translates va pa ∧ x = pa + va % pageSize := by
  have high : ¬ (kseg1 ≤ va ∧ va < kseg2) := by
    simp only [kseg0, kseg1] at low ⊢
    omega
  have ut := us.tick
  rw [translate, if_neg (fun h => absurd h.1 (by omega)), if_neg high] at e
  cases probe : m.tick.tlb.probe va with
  | some en =>
    simp only [probe, bind_ok_iff] at e
    obtain ⟨x, hx, e⟩ := e
    cases e
    refine ⟨rfl, ut, ?_⟩
    rintro _ ⟨⟩
    exact User.through ut.tlb probe hx
  | none =>
    simp only [probe, bind_ok_iff] at e
    obtain ⟨⟨tlb, result⟩, fault, e⟩ := e
    rw [ut.space] at fault
    have cons := ut.tlb.vmFault fault
    split at e
    next =>
      cases e
      exact ⟨rfl, ⟨ut.space, cons⟩, by simp⟩
    next =>
      split at e
      next => cases e
      next probe' =>
        obtain ⟨x, hx, e⟩ := bind_ok_iff.1 e
        cases e
        refine ⟨rfl, ⟨ut.space, cons⟩, ?_⟩
        rintro _ ⟨⟩
        exact User.through cons probe' hx

/-- A store changes the byte at its user address and no other. -/
lemma store_spec {b : UInt8} (us : m.User as) (bk : as.Backed) (low : va < kseg0)
    (e : m.store va b = .ok (m', true)) :
    m'.User as ∧ as.Byte m'.phys.mem va b ∧
      ∀ va' b', va' < 2 ^ 32 → va' ≠ va → as.Byte m.phys.mem va' b' → as.Byte m'.phys.mem va' b' := by
  obtain ⟨⟨m₁, p⟩, et, e⟩ := bind_ok_iff.1 e
  obtain ⟨phys, us₁, hp⟩ := translate_spec us low et
  cases p with
  | none => cases e
  | some x =>
    cases e
    obtain ⟨pa, t, rfl⟩ := hp x rfl
    have lt : va < 2 ^ 32 := by
      simp only [kseg0] at low
      omega
    refine ⟨⟨us₁.space, us₁.tlb⟩, ⟨pa, t, Function.update_self ..⟩, ?_⟩
    rintro va' b' lt' ne ⟨pa', t', rfl⟩
    refine ⟨pa', t', ?_⟩
    rw [← phys]
    refine Function.update_of_ne ?_ ..
    exact fun h => ne (bk.byte_inj lt lt' t t' h)

/-- Storing bytes writes them one after the other, and leaves the addresses around them alone. -/
lemma storeBytes_spec {bytes : List UInt8} (us : m.User as) (bk : as.Backed)
    (low : va + bytes.length ≤ kseg0) (e : m.storeBytes va bytes = .ok (m', true)) :
    m'.User as ∧ (∀ k (h : k < bytes.length), as.Byte m'.phys.mem (va + k) bytes[k]) ∧
      ∀ va' b', va' < 2 ^ 32 → (va' < va ∨ va + bytes.length ≤ va') →
        as.Byte m.phys.mem va' b' → as.Byte m'.phys.mem va' b' := by
  induction bytes generalizing m va with
  | nil =>
    cases e
    exact ⟨us, by simp, fun _ _ _ _ h => h⟩
  | cons b bs ih =>
    obtain ⟨⟨m₁, ok⟩, es, e⟩ := bind_ok_iff.1 e
    cases ok with
    | false => cases e
    | true =>
      rw [List.length_cons] at low
      have next : wadd 32 va 1 = va + 1 := wadd_of_lt (by simp only [kseg0] at low; omega)
      obtain ⟨us₁, first, keep₁⟩ := store_spec us bk (by omega) es
      simp only [if_true, next] at e
      obtain ⟨us', rest, keep⟩ := ih us₁ (by omega) e
      refine ⟨us', ?_, ?_⟩
      · intro k h
        cases k with
        | zero => exact keep _ _ (by simp only [kseg0] at low; omega) (.inl (by omega)) first
        | succ k =>
          have := rest k (by simpa using h)
          rwa [Nat.add_assoc, Nat.add_comm 1 k] at this
      · intro va' b' lt out h
        rw [List.length_cons] at out
        exact keep va' b' lt (by omega) (keep₁ va' b' lt (by omega) h)

/-- Storing two pieces is storing them together. -/
lemma storeBytes_append {bs bs' : List UInt8} {m₁ : Mach} (lt : va < 2 ^ 32)
    (e : m.storeBytes va bs = .ok (m₁, true)) :
    m.storeBytes va (bs ++ bs') = m₁.storeBytes (wadd 32 va bs.length) bs' := by
  induction bs generalizing m va with
  | nil =>
    cases e
    rw [List.nil_append, List.length_nil, wadd_of_lt lt, Nat.add_zero]
  | cons b bs ih =>
    obtain ⟨⟨m₂, ok⟩, es, e⟩ := bind_ok_iff.1 e
    cases ok with
    | false => cases e
    | true =>
      simp only [if_true] at e
      rw [List.cons_append, storeBytes, es]
      simp only [ok_bind, if_true]
      rw [ih (wadd_lt ..) e, wadd_wadd, List.length_cons, Nat.add_comm]

end Mach

/-- A `copyout` that succeeds has stored all its bytes at a user address. -/
lemma copyout_ok {m m' : Mach} {src : List UInt8} {userdest : Nat}
    (e : copyout m src userdest = .ok (m', 0)) :
    m.storeBytes userdest src = .ok (m', true) ∧ userdest < userspaceTop := by
  rw [copyout] at e
  have nz : efault ≠ 0 := by decide
  have low : (copycheck userdest src.length).2 = 0 → userdest < userspaceTop := by
    simp only [copycheck]
    split_ifs with h₁ h₂
    · exact fun h => absurd h nz
    · exact fun h => absurd h nz
    all_goals exact fun _ => Nat.lt_of_not_le h₂
  generalize copycheck userdest src.length = check at e low
  obtain ⟨stoplen, result⟩ := check
  dsimp only at e low
  split at e
  next nz =>
    cases e
    exact absurd rfl nz
  next z =>
    split at e
    next => cases e
    next =>
      obtain ⟨⟨m₁, ok⟩, es, e⟩ := bind_ok_iff.1 e
      cases ok with
      | false => cases e
      | true =>
        cases e
        exact ⟨es, low (not_not.1 z)⟩

end PDS.Kern
