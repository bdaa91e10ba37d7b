import PDS.Kern.PrivateMemory
import PDS.Kern.UserAccess
import PDS.Kern.AddrspaceCopy

/-!
# User memory is private

The system of `PrivateMemory.lean` refines private memories. The TLB of a CPU belongs to the address space of the thread
that runs on the CPU (`UserSys.Inv`), because `thread_switch` has activated it or the thread itself has.
While the CPU is in `thread_switch` or idles on the stack of a thread, the thread may run elsewhere and even exit; the
TLB then is stale, and nothing is said about it. Nor is anything said when a thread without an address space runs.

A step of a thread leaves the memory of the others alone (`Frame`), because their address spaces have blocks of their
own (`AsSys.Inv`).
-/

namespace PDS.Kern
open Word Extent UserSys

/-- The valid entries of a TLB are for user pages, the others for pages of `kseg0` that `as_activate` or `tlb_reset` has
put there, and no two are for the same page. -/
structure Tlb.Sound (tlb : Tlb) : Prop where
  user : ∀ i, tlb.Valid i → (tlb i).ehi &&& pageFrame < kseg0
  kernel : ∀ i, ¬ tlb.Valid i → (tlb i).ehi &&& pageFrame = tlbhiInvalid i ∨ 0x81000000 ≤ (tlb i).ehi &&& pageFrame
  distinct : ∀ i j, (tlb i).ehi &&& pageFrame = (tlb j).ehi &&& pageFrame → i = j

namespace Tlb

variable {tlb tlb' : Tlb} {as : AddrSpace} {va faulttype result : Nat}

/-- A table that was just reset answers soundly for every address space. -/
lemma Reset.sound (reset : tlb.Reset) : tlb.Sound where
  user i valid := absurd (by rw [reset.invalid i, Nat.zero_and]) valid
  kernel i _ := .inr (reset.pages i)
  distinct := reset.distinct

/-- The invalid entries lie above the kernel's second window, one page apart. -/
lemma tlbhiInvalid_eq (i : Nat) : tlbhiInvalid i = (0x80000 + i) * 4096 := by
  rw [tlbhiInvalid, Nat.shiftLeft_eq]

/-- An invalid entry's address is that of a page. -/
lemma tlbhiInvalid_page (i : Fin numTlb) : tlbhiInvalid i &&& pageFrame = tlbhiInvalid i := by
  have lt : i.val < 64 := i.isLt
  rw [tlbhiInvalid_eq, and_pageFrame_eq_iff (by omega)]
  exact Nat.dvd_mul_left _ _

/-- `as_activate` has rewritten the whole table after its last turn. -/
lemma activated_all (tlb : Tlb) : tlb.activated numTlb = asActivate := by
  funext i
  exact if_pos i.isLt

/-- `as_activate` writes one entry after the other, and there is never a page with two of them. -/
lemma Sound.activated (snd : tlb.Sound) (k : Nat) : (tlb.activated k).Sound where
  user i valid := by
    by_cases lt : i.val < k
    · rw [Valid, Tlb.activated, if_pos lt] at valid
      exact absurd valid (asActivate_valid i)
    · rw [Valid, Tlb.activated, if_neg lt] at valid
      rw [Tlb.activated, if_neg lt]
      exact snd.user i valid
  kernel i invalid := by
    by_cases lt : i.val < k
    · rw [Tlb.activated, if_pos lt]
      exact .inl (tlbhiInvalid_page i)
    · rw [Valid, Tlb.activated, if_neg lt] at invalid
      rw [Tlb.activated, if_neg lt]
      exact snd.kernel i invalid
  distinct i j same := by
    -- an old entry is for a user page, for the page of its own number, or for one above all of these
    have old {i j : Fin numTlb} (eq : tlbhiInvalid i = (tlb j).ehi &&& pageFrame) : i = j := by
      have lt : i.val < 64 := i.isLt
      have lt' : j.val < 64 := j.isLt
      rw [tlbhiInvalid_eq] at eq
      by_cases valid : tlb.Valid j
      · have := snd.user j valid
        simp only [kseg0] at this
        omega
      · obtain here | above := snd.kernel j valid
        · rw [tlbhiInvalid_eq] at here
          omega
        · omega
    have new (i : Fin numTlb) : (asActivate i).ehi &&& pageFrame = tlbhiInvalid i := tlbhiInvalid_page i
    by_cases lt : i.val < k
    · by_cases lt' : j.val < k
      · rw [Tlb.activated, if_pos lt, Tlb.activated, if_pos lt', new, new, tlbhiInvalid_eq, tlbhiInvalid_eq] at same
        omega
      · rw [Tlb.activated, if_pos lt, Tlb.activated, if_neg lt', new] at same
        exact old same
    · by_cases lt' : j.val < k
      · rw [Tlb.activated, if_neg lt, Tlb.activated, if_pos lt', new] at same
        exact (old same.symm).symm
      · rw [Tlb.activated, if_neg lt, Tlb.activated, if_neg lt'] at same
        exact snd.distinct i j same

/-- The reset table is sound for every address space. -/
lemma Sound.asActivate (snd : tlb.Sound) : Sound asActivate := by
  rw [← activated_all tlb]
  exact snd.activated numTlb

/-- `vm_fault` enters a page that has no valid entry. -/
lemma Sound.vmFault (snd : tlb.Sound) (low : va < kseg0) (miss : tlb.probe va = none)
    (e : Kern.vmFault (some as) tlb faulttype va = .ok (tlb', result)) : tlb'.Sound := by
  obtain ⟨-, rfl⟩ | ⟨-, -, pa, i, -, -, unused, rfl⟩ := AddrSpace.vmFault_ok e
  · exact snd
  have free := unused_some unused
  have page : va &&& pageFrame < kseg0 := Nat.lt_of_le_of_lt Nat.and_le_left low
  have new : va &&& pageFrame &&& pageFrame = va &&& pageFrame := by rw [Nat.and_assoc, Nat.and_self]
  have other (j : Fin numTlb) : (tlb j).ehi &&& pageFrame ≠ va &&& pageFrame := by
    intro same
    by_cases valid : tlb.Valid j
    · have hit : va &&& pageFrame ∈ tlb.pages := mem_pages.2 ⟨j, valid, same⟩
      rw [← probe_isSome_iff, miss] at hit
      cases hit
    · have invalid := snd.kernel j valid
      rw [same, tlbhiInvalid_eq] at invalid
      simp only [kseg0] at page
      omega
  have valid := update_valid free (entry_valid (va &&& pageFrame) pa)
  refine ⟨?_, ?_, ?_⟩
  · intro j hj
    by_cases here : j = i
    · rw [here, Function.update_self, new]
      exact page
    · rw [Function.update_of_ne here]
      exact snd.user j (((valid j).1 hj).resolve_left here)
  · intro j hj
    have ne : j ≠ i := fun here => hj ((valid j).2 (.inl here))
    rw [Function.update_of_ne ne]
    exact snd.kernel j fun v => hj ((valid j).2 (.inr v))
  · intro j k same
    by_cases here : j = i
    · by_cases here' : k = i
      · rw [here, here']
      · rw [here, Function.update_self, Function.update_of_ne here', new] at same
        exact absurd same.symm (other k)
    · by_cases here' : k = i
      · rw [here', Function.update_self, Function.update_of_ne here, new] at same
        exact absurd same (other j)
      · rw [Function.update_of_ne here, Function.update_of_ne here'] at same
        exact snd.distinct j k same

end Tlb

/-- A translation of the user's goes by the address space, and the table stays sound. -/
lemma Mach.translate_sound {m m' : Mach} {as : AddrSpace} {va faulttype : Nat} {p : Option Nat} (snd : m.tlb.Sound)
    (space : m.as = some as) (low : va < kseg0) (e : m.translate faulttype va = .ok (m', p)) : m'.tlb.Sound := by
  have tick : m.tick.tlb.Sound := by
    rw [Mach.tick]
    split
    · exact snd.asActivate
    · exact snd
  have high : ¬ (kseg1 ≤ va ∧ va < kseg2) := by
    simp only [kseg0, kseg1] at low ⊢
    omega
  rw [translate, if_neg (fun h => absurd h.1 (by omega)), if_neg high] at e
  cases probe : m.tick.tlb.probe va with
  | some en =>
    simp only [probe, bind_ok_iff] at e
    obtain ⟨x, -, e⟩ := e
    cases e
    exact tick
  | none =>
    simp only [probe, bind_ok_iff] at e
    obtain ⟨⟨tlb, result⟩, fault, e⟩ := e
    have space : m.tick.as = some as := space
    rw [space] at fault
    have snd := tick.vmFault low probe fault
    split at e
    next =>
      cases e
      exact snd
    next =>
      split at e
      next => cases e
      next =>
        obtain ⟨x, -, e⟩ := bind_ok_iff.1 e
        cases e
        exact snd

/-- When `as_prepare_load` fails there is a region without memory. -/
lemma asPrepareLoad_failed {ph ph' : Phys} {as as' : AddrSpace} {result : Nat}
    (e : asPrepareLoad ph as = .ok (ph', as', result)) (failed : result ≠ 0) : ∃ r, as'.pbase r = 0 := by
  simp only [asPrepareLoad, bind_ok_iff] at e
  obtain ⟨-, -, -, -, -, -, ⟨vm₁, as₁⟩, -, e⟩ := e
  split at e
  next none =>
    cases e
    exact ⟨.one, none⟩
  next =>
    obtain ⟨⟨vm₂, as₂⟩, -, e⟩ := bind_ok_iff.1 e
    split at e
    next none =>
      cases e
      exact ⟨.two, none⟩
    next =>
      obtain ⟨⟨vm₃, as₃⟩, -, e⟩ := bind_ok_iff.1 e
      split at e
      next none =>
        cases e
        exact ⟨.stack, none⟩
      next =>
        cases e
        exact absurd rfl failed

/-- A TLB has no valid entry for an address space without memory. -/
lemma Tlb.Consistent.of_none {tlb : Tlb} {as as' : AddrSpace} (cons : tlb.Consistent as)
    (none : ∀ va pa, ¬ as.Translates va pa) : tlb.Consistent as' :=
  fun i valid => absurd (cons i valid).1 (none _ _)

namespace AsSys

/-- The contents of memory do not matter. -/
lemma Inv.withMem {s : AsSys} (inv : s.Inv) (mem : Pmem) : Inv { s with phys := ⟨s.phys.vm, mem⟩ } :=
  ⟨inv.booted, inv.owned, inv.used, inv.fresh⟩

variable {s : AsSys} {id id' : Nat} {sp sp' : Space} {as : AddrSpace} {va va' pa pa' : Nat}

/-- Before `as_prepare_load` there is nothing to translate to. -/
lemma Inv.unprepared (inv : s.Inv) (h : s.space id = some ⟨as, false⟩) (va pa : Nat) : ¬ as.Translates va pa :=
  fun t => (AddrSpace.translates_iff.1 t).1.pbase .one (inv.fresh h rfl .one)

/-- The byte at a user address lies in the memory of a region. -/
lemma Inv.byte_within (inv : s.Inv) (h : s.space id = some sp) (t : sp.as.Translates va pa) :
    ∃ r, sp.as.pbase r ≠ 0 ∧ (sp.as.block r).Has (pa + va % pageSize) := by
  obtain ⟨r, nz, start, stop⟩ := inv.isolated.frames_within h t
  have lt : va % pageSize < pageSize := Nat.mod_lt va (by decide)
  refine ⟨r, nz, ?_⟩
  simp only [Block.Has]
  omega

/-- Different user addresses, or those of different address spaces, have different bytes. -/
lemma Inv.byte_inj (inv : s.Inv) (h : s.space id = some sp) (h' : s.space id' = some sp') (lt : va < 2 ^ 32)
    (lt' : va' < 2 ^ 32) (t : sp.as.Translates va pa) (t' : sp'.as.Translates va' pa')
    (e : pa' + va' % pageSize = pa + va % pageSize) : id' = id ∧ va' = va := by
  have pos : 0 < pageSize := by decide
  obtain ⟨k, hk⟩ := t.aligned
  obtain ⟨k', hk'⟩ := t'.aligned
  have page : k' = k := by
    have eq := congrArg (· / pageSize) e
    simpa only [hk, hk', Nat.mul_add_div pos, Nat.div_eq_of_lt (Nat.mod_lt _ pos), Nat.add_zero] using eq
  subst page
  have frame : pa' = pa := hk'.trans hk.symm
  have same : id' = id ∧ va' &&& pageFrame = va &&& pageFrame := by
    by_contra ne
    exact inv.isolated.frames_distinct h h' t t' ne frame
  refine ⟨same.1, ?_⟩
  rw [← and_pageFrame_add lt, ← and_pageFrame_add lt']
  omega

end AsSys

/-- The CPU is on the stack of its current thread, which `thread_switch` has not put anywhere else. -/
def ThreadSys.OnCpu {n : Nat} (s : ThreadSys n) (c : Fin n) : Prop := s.mode c = .running ∨ s.mode c = .exorcising

section

variable {n : Nat} {s s' : UserSys n} {t : ThreadSys n} {c : Fin n}

/-- A thread comes to its CPU only through `switchframe_switch`. -/
lemma ThreadStep.onCpu {s t : ThreadSys n} (st : ThreadStep s t) (on : t.OnCpu c) :
    (s.OnCpu c ∧ t.curthread c = s.curthread c) ∨ (t.mode c = .exorcising ∧ s.mode c ≠ .exorcising) := by
  -- a CPU whose mode has been set to one that is not of these
  have away {t' : ThreadSys n} {d : Fin n} {mode : CpuMode} (on : t'.OnCpu c)
      (modes : t'.mode = Function.update s.mode d mode) (run : mode ≠ .running) (exo : mode ≠ .exorcising) :
      c ≠ d ∧ s.OnCpu c := by
    rw [ThreadSys.OnCpu, modes] at on
    by_cases here : c = d
    · rw [here, Function.update_self] at on
      exact absurd on (not_or.2 ⟨run, exo⟩)
    · rw [Function.update_of_ne here] at on
      exact ⟨here, on⟩
  cases st with
  | fork | wakeone | wakeall | makeRunnable | destroy | migrate | migration | migrated => exact .inl ⟨on, rfl⟩
  | yield | sleep | exit | idle | unidle => exact .inl ⟨(away on rfl nofun nofun).2, rfl⟩
  | next =>
    obtain ⟨ne, on⟩ := away on rfl nofun nofun
    exact .inl ⟨on, Function.update_of_ne ne ..⟩
  | @switchframe d cur leaving =>
    by_cases here : c = d
    · rw [here]
      refine .inr ⟨Function.update_self .., ?_⟩
      rw [leaving]
      exact nofun
    · have on : Function.update s.mode d .exorcising c = .running ∨
          Function.update s.mode d .exorcising c = .exorcising := on
      rw [Function.update_of_ne here] at on
      exact .inl ⟨on, rfl⟩
  | @exorcised d exorcising =>
    by_cases here : c = d
    · rw [here]
      exact .inl ⟨.inr exorcising, rfl⟩
    · have on : Function.update s.mode d .running c = .running ∨
          Function.update s.mode d .running c = .exorcising := on
      rw [Function.update_of_ne here] at on
      exact .inl ⟨on, rfl⟩

/-- A thread becomes a zombie only in `thread_exit`. -/
lemma ThreadStep.zombie (st : ThreadStep s.toThreadSys t) {z : Tid} (mem : z ∈ t.zombies c) :
    z ∈ s.zombies c ∨ (s.Exits t c ∧ z = s.curthread c) := by
  cases st with
  | fork | wakeone | wakeall | makeRunnable | yield | sleep | next | idle | unidle | switchframe | exorcised | migrate
  | migration | migrated => exact .inl mem
  | @exit d run =>
    by_cases here : c = d
    · subst here
      have eq : Function.update s.zombies c (s.zombies c ++ [s.curthread c]) c = _ := Function.update_self ..
      have mem : z ∈ Function.update s.zombies c (s.zombies c ++ [s.curthread c]) c := mem
      rw [eq, List.mem_append, List.mem_singleton] at mem
      exact mem.imp_right fun same => ⟨⟨run, eq⟩, same⟩
    · have mem : z ∈ Function.update s.zombies d (s.zombies d ++ [s.curthread d]) c := mem
      rw [Function.update_of_ne here] at mem
      exact .inl mem
  | @destroy d y zs _ cons =>
    by_cases here : c = d
    · subst here
      have mem : z ∈ Function.update s.zombies c zs c := mem
      rw [Function.update_self] at mem
      rw [cons]
      exact .inl (List.mem_cons_of_mem _ mem)
    · have mem : z ∈ Function.update s.zombies d zs c := mem
      rw [Function.update_of_ne here] at mem
      exact .inl mem

/-- The TLB of a CPU belongs to the thread that runs on it, and every address space to one thread. -/
structure UserSys.Inv (s : UserSys n) : Prop where
  threads : s.toThreadSys.Inv
  spaces : s.spaces.Inv
  space : ∀ {t id}, (s.phase t).space = some id → ∃ sp, s.spaces.space id = some sp
  own : ∀ {t u id}, (s.phase t).space = some id → (s.phase u).space = some id → t = u
  created : ∀ {t id}, s.phase t = .created id → ∃ as, s.spaces.space id = some ⟨as, false⟩
  sound : ∀ c, (s.tlb c).Sound
  tlb : ∀ {c id sp}, s.OnCpu c → s.phase (s.curthread c) = .active id → s.spaces.space id = some sp →
    (s.tlb c).Consistent sp.as
  zombie : ∀ {c z}, z ∈ s.zombies c → s.phase z = .exiting

/-- The thread finds the byte `b` at the user address `va`. -/
def UserSys.Shows (s : UserSys n) (t : Tid) (va : Nat) (b : UInt8) : Prop :=
  ∃ id sp, s.phase t = .active id ∧ s.spaces.space id = some sp ∧ va < kseg0 ∧ sp.as.Byte s.spaces.phys.mem va b

/-- What a step of the current thread of the CPU `c` leaves alone. -/
structure Frame (s s' : UserSys n) (c : Fin n) : Prop where
  threads : s'.toThreadSys = s.toThreadSys
  phase : ∀ u ≠ s.curthread c, s'.phase u = s.phase u
  tlb : ∀ d ≠ c, s'.tlb d = s.tlb d
  space : ∀ u ≠ s.curthread c, ∀ id, (s.phase u).space = some id → s'.spaces.space id = s.spaces.space id
  byte : ∀ u ≠ s.curthread c, ∀ id sp va pa, s.phase u = .active id → s.spaces.space id = some sp → va < kseg0 →
    sp.as.Translates va pa → s'.spaces.phys.mem (pa + va % pageSize) = s.spaces.phys.mem (pa + va % pageSize)

/-- The other threads find the same bytes as before. -/
lemma Frame.shows (frame : Frame s s' c) {u : Tid} {va : Nat} {b : UInt8} (ne : u ≠ s.curthread c)
    (shows : s'.Shows u va b) : s.Shows u va b := by
  obtain ⟨id, sp, active, space, low, pa, t, rfl⟩ := shows
  rw [frame.phase u ne] at active
  rw [frame.space u ne id (by rw [active]; rfl)] at space
  exact ⟨id, sp, active, space, low, pa, t, (frame.byte u ne id sp va pa active space low t).symm⟩

/-- A step of the current thread of a CPU keeps the invariant, when it keeps what concerns the thread itself. -/
lemma Frame.inv (frame : Frame s s' c) (inv : s.Inv) (runs : s.mode c = .running) (spaces : s'.spaces.Inv)
    (space : ∀ id, (s'.phase (s.curthread c)).space = some id →
      (∃ sp, s'.spaces.space id = some sp) ∧ ∀ u ≠ s.curthread c, (s.phase u).space ≠ some id)
    (created : ∀ id, s'.phase (s.curthread c) = .created id → ∃ as, s'.spaces.space id = some ⟨as, false⟩)
    (sound : (s'.tlb c).Sound)
    (tlb : ∀ id sp, s'.phase (s.curthread c) = .active id → s'.spaces.space id = some sp →
      (s'.tlb c).Consistent sp.as) : s'.Inv where
  threads := by
    rw [frame.threads]
    exact inv.threads
  spaces := spaces
  space {t id} h := by
    by_cases here : t = s.curthread c
    · rw [here] at h
      exact (space id h).1
    · rw [frame.phase t here] at h
      rw [frame.space t here id h]
      exact inv.space h
  own {t u id} h h' := by
    by_cases here : t = s.curthread c
    · by_cases here' : u = s.curthread c
      · exact here.trans here'.symm
      · rw [frame.phase u here'] at h'
        rw [here] at h
        exact absurd h' ((space id h).2 u here')
    · by_cases here' : u = s.curthread c
      · rw [frame.phase t here] at h
        rw [here'] at h'
        exact absurd h ((space id h').2 t here)
      · rw [frame.phase t here] at h
        rw [frame.phase u here'] at h'
        exact inv.own h h'
  created {t id} h := by
    by_cases here : t = s.curthread c
    · rw [here] at h
      exact created id h
    · rw [frame.phase t here] at h
      rw [frame.space t here id (by rw [h]; rfl)]
      exact inv.created h
  sound d := by
    by_cases here : d = c
    · rw [here]
      exact sound
    · rw [frame.tlb d here]
      exact inv.sound d
  tlb {d id sp} on active h := by
    rw [frame.threads] at on active
    by_cases here : d = c
    · rw [here] at active ⊢
      exact tlb id sp active h
    · -- the current thread of another CPU is another thread
      have ne : s.curthread d ≠ s.curthread c := by
        intro same
        refine here ?_
        rw [← inv.threads.current d, same, inv.threads.current c]
      rw [frame.phase _ ne] at active
      rw [frame.space _ ne id (by rw [active]; rfl)] at h
      rw [frame.tlb d here]
      exact inv.tlb on active h
  zombie {d z} mem := by
    rw [frame.threads] at mem
    have ne : z ≠ s.curthread c := by
      rintro rfl
      exact inv.threads.not_zombie (ThreadSys.mem_cpu (by rw [runs]; rfl)) nofun d mem
    rw [frame.phase z ne]
    exact inv.zombie mem

/-! ## Simulation -/

/-- The private memories show what the threads find in theirs. -/
structure Related (s : UserSys n) (m : Memories) : Prop where
  inv : s.Inv
  shows : ∀ {t va b}, s.Shows t va b → ∃ p, m t = some p ∧ p va = b

variable {m m' : Memories} {id : Nat} {sp : Space} {as : AddrSpace}

/-- After a step of the current thread of a CPU, only the memory of this thread has changed. -/
lemma Related.next (rel : Related s m) (frame : Frame s s' c) (inv : s'.Inv)
    (others : ∀ u ≠ s.curthread c, m' u = m u)
    (own : ∀ {va b}, s'.Shows (s.curthread c) va b → ∃ p, m' (s.curthread c) = some p ∧ p va = b) : Related s' m' := by
  refine ⟨inv, fun {t va b} shows => ?_⟩
  by_cases here : t = s.curthread c
  · rw [here] at shows ⊢
    exact own shows
  · rw [others t here]
    exact rel.shows (frame.shows here shows)

/-- A step of the scheduler changes no user memory. -/
lemma Related.schedule (rel : Related s m) (st : ThreadStep s.toThreadSys t)
    (exits : ∀ c, s.Exits t c → s.phase (s.curthread c) = .exiting) : Related (s.schedule t) m := by
  have inv := rel.inv
  -- a phase that is not that of a new thread is that of before
  have before {u : Tid} {phase : UserPhase} (h : (s.schedule t).phase u = phase) (ne : phase ≠ .kernel) :
      s.phase u = phase := by
    have h : (if s.live u then s.phase u else .kernel) = phase := h
    split_ifs at h
    · exact h
    · exact absurd h.symm ne
  have space {u : Tid} {id : Nat} (h : ((s.schedule t).phase u).space = some id) : (s.phase u).space = some id := by
    have h : (if s.live u then s.phase u else .kernel).space = some id := h
    split_ifs at h
    · exact h
    · cases h
  refine ⟨⟨inv.threads.step st, inv.spaces, fun h => inv.space (space h), fun h h' => inv.own (space h) (space h'),
    fun h => inv.created (before h nofun), fun c => ?_, fun {c id sp} on active h => ?_, fun {c z} mem => ?_⟩, ?_⟩
  · show (if s.Switches t c then asActivate else s.tlb c).Sound
    split_ifs
    · exact (inv.sound c).asActivate
    · exact inv.sound c
  · show (if s.Switches t c then asActivate else s.tlb c).Consistent sp.as
    have active : s.phase (t.curthread c) = .active id := before active nofun
    split_ifs with switches
    · exact asActivate_consistent sp.as
    · obtain ⟨on', same⟩ | ⟨exo, ne⟩ := st.onCpu on
      · rw [same] at active
        exact inv.tlb on' active h
      · refine absurd ⟨exo, ne, ?_⟩ switches
        rw [active]
        exact Option.some_ne_none id
  · show (if s.live z then s.phase z else .kernel) = .exiting
    obtain mem | ⟨exit, rfl⟩ := st.zombie mem
    · have placed : z ∈ s.content (.zombies c) := mem
      have live : s.live z = true := inv.threads.placed.of_mem placed
      rw [if_pos live]
      exact inv.zombie mem
    · have live : s.live (s.curthread c) = true :=
        inv.threads.placed.of_mem (ThreadSys.mem_cpu (by rw [exit.1]; rfl))
      rw [if_pos live]
      exact exits c exit
  · rintro u va b ⟨id, sp, active, h⟩
    exact rel.shows ⟨id, sp, before active nofun, h⟩

/-- A new address space starts with nothing in memory. -/
lemma Related.create (rel : Related s m) (runs : s.Runs c) (free : s.spaces.space id = none) {k : Bool}
    (created : asCreate k = some as) :
    Related { s.enter c (.created id) with spaces := s.spaces.set s.spaces.phys id (some ⟨as, false⟩) } m := by
  have inv := rel.inv
  have taken {u : Tid} {id' : Nat} (h : (s.phase u).space = some id') : id' ≠ id := by
    rintro rfl
    obtain ⟨sp, h'⟩ := inv.space h
    rw [free] at h'
    cases h'
  have frame : Frame s { s.enter c (.created id) with
      spaces := s.spaces.set s.spaces.phys id (some ⟨as, false⟩) } c :=
    ⟨rfl, fun u ne => Function.update_of_ne ne .., fun _ _ => rfl, fun u _ id' h => AsSys.set_ne _ _ _ (taken h),
      fun _ _ _ _ _ _ _ _ _ _ => rfl⟩
  have phase : Function.update s.phase (s.curthread c) (.created id) (s.curthread c) = .created id :=
    Function.update_self ..
  refine rel.next frame (frame.inv inv runs.1 (inv.spaces.step (.create free created)) ?_ ?_ (inv.sound c) ?_)
    (fun _ _ => rfl) ?_
  · intro id' h
    have h : (Function.update s.phase (s.curthread c) (.created id) (s.curthread c)).space = some id' := h
    rw [phase] at h
    cases h
    exact ⟨⟨_, AsSys.set_self ..⟩, fun u _ h => taken h rfl⟩
  · intro id' h
    cases phase.symm.trans h
    exact ⟨as, AsSys.set_self ..⟩
  · intro id' _ h
    cases phase.symm.trans h
  · rintro va b ⟨id', _, h, -⟩
    cases phase.symm.trans h

/-- Activation changes the table only. -/
lemma Related.activate (rel : Related s m) (runs : s.Runs c) (created : s.phase (s.curthread c) = .created id) :
    Related { s.enter c (.active id) with tlb := Function.update s.tlb c asActivate } m := by
  have inv := rel.inv
  have frame : Frame s { s.enter c (.active id) with tlb := Function.update s.tlb c asActivate } c :=
    ⟨rfl, fun u ne => Function.update_of_ne ne .., fun d ne => Function.update_of_ne ne .., fun _ _ _ _ => rfl,
      fun _ _ _ _ _ _ _ _ _ _ => rfl⟩
  have phase : Function.update s.phase (s.curthread c) (.active id) (s.curthread c) = .active id :=
    Function.update_self ..
  have tlb : Function.update s.tlb c asActivate c = asActivate := Function.update_self ..
  have mine : (s.phase (s.curthread c)).space = some id := by rw [created]; rfl
  refine rel.next frame (frame.inv inv runs.1 inv.spaces ?_ ?_ ?_ ?_) (fun _ _ => rfl) ?_
  · intro id' h
    have h : (Function.update s.phase (s.curthread c) (.active id) (s.curthread c)).space = some id' := h
    rw [phase] at h
    cases h
    exact ⟨inv.space mine, fun u ne h => ne (inv.own h mine)⟩
  · intro id' h
    cases phase.symm.trans h
  · show (Function.update s.tlb c asActivate c).Sound
    rw [tlb]
    exact (inv.sound c).asActivate
  · intro _ sp _ _
    show (Function.update s.tlb c asActivate c).Consistent sp.as
    rw [tlb]
    exact asActivate_consistent sp.as
  · rintro va b ⟨id', sp, h, space, -, pa, t, -⟩
    cases phase.symm.trans h
    obtain ⟨as, unprepared⟩ := inv.created created
    cases unprepared.symm.trans space
    exact absurd t (inv.spaces.unprepared unprepared va pa)

/-- `load_elf` changes the address space of its own thread before there is anything to translate to. -/
lemma Related.fill (rel : Related s m) (runs : s.Runs c) (active : s.phase (s.curthread c) = .active id)
    (unprepared : s.spaces.space id = some ⟨as, false⟩) {sp : Space} {ph : Phys}
    (spaces : (s.spaces.set ph id (some sp)).Inv)
    (mem : ∀ {id' sp' va pa}, s.spaces.space id' = some sp' → sp'.as.Translates va pa →
      ph.mem (pa + va % pageSize) = s.spaces.phys.mem (pa + va % pageSize))
    (others : ∀ u ≠ s.curthread c, m' u = m u)
    (own : ∀ {va b}, sp.as.Byte ph.mem va b → ∃ p, m' (s.curthread c) = some p ∧ p va = b) :
    Related { s with spaces := s.spaces.set ph id (some sp) } m' := by
  have inv := rel.inv
  have mine : (s.phase (s.curthread c)).space = some id := by rw [active]; rfl
  have taken {u : Tid} {id' : Nat} (ne : u ≠ s.curthread c) (h : (s.phase u).space = some id') : id' ≠ id := by
    rintro rfl
    exact ne (inv.own h mine)
  have frame : Frame s { s with spaces := s.spaces.set ph id (some sp) } c :=
    ⟨rfl, fun _ _ => rfl, fun _ _ => rfl, fun u ne id' h => AsSys.set_ne _ _ _ (taken ne h),
      fun u ne id' sp' va pa _ space _ t => mem space t⟩
  refine rel.next frame (frame.inv inv runs.1 spaces ?_ ?_ (inv.sound c) ?_) others ?_
  · intro id' h
    cases mine.symm.trans h
    exact ⟨⟨sp, AsSys.set_self ..⟩, fun u ne h => taken ne h rfl⟩
  · intro id' h
    cases active.symm.trans h
  · intro id' sp' h _
    cases active.symm.trans h
    exact (inv.tlb (.inl runs.1) active unprepared).of_none (inv.spaces.unprepared unprepared)
  · rintro va b ⟨id', sp', h, space, low, byte⟩
    cases active.symm.trans h
    cases (AsSys.set_self s.spaces ph id (some sp)).symm.trans space
    exact own byte

/-- `as_define_region` changes no frame. -/
lemma Related.define (rel : Related s m) (runs : s.Runs c) (active : s.phase (s.curthread c) = .active id)
    (unprepared : s.spaces.space id = some ⟨as, false⟩) {vaddr sz result : Nat} {as' : AddrSpace}
    (e : asDefineRegion as vaddr sz = (as', result)) :
    Related { s with spaces := s.spaces.set s.spaces.phys id (some ⟨as', false⟩) } m := by
  have spaces := rel.inv.spaces.step (.define unprepared e)
  refine rel.fill runs active unprepared spaces (fun _ _ => rfl) (fun _ _ => rfl) ?_
  rintro va b ⟨pa, t, -⟩
  exact absurd t (spaces.unprepared (AsSys.set_self ..) va pa)

/-- `as_prepare_load` takes frames that nobody else holds. -/
lemma Related.prepare (rel : Related s m) (runs : s.Runs c) (active : s.phase (s.curthread c) = .active id)
    (unprepared : s.spaces.space id = some ⟨as, false⟩) {ph : Phys} {as' : AddrSpace} {result : Nat}
    (e : asPrepareLoad s.spaces.phys as = .ok (ph, as', result)) :
    ∃ m', PrivateStep m (if result = 0 then .start (s.curthread c) else .tau) m' ∧
      Related { s with spaces := s.spaces.set ph id (some ⟨as', true⟩) } m' := by
  have inv := rel.inv
  have spaces := inv.spaces.step (.prepare unprepared e)
  have zero := inv.spaces.fresh unprepared rfl
  obtain e' | ⟨_, _, _, e', bk, -, -, outcome⟩ := asPrepareLoad_total inv.spaces.booted zero
  · cases e.symm.trans e'
  cases e.symm.trans e'
  obtain ⟨rfl, same⟩ | ⟨rfl, nz, keep⟩ := outcome
  · refine ⟨m, .tau, rel.fill runs active unprepared spaces (fun _ _ => by rw [same]) (fun _ _ => rfl) ?_⟩
    rintro va b ⟨pa, t, -⟩
    obtain ⟨r, none⟩ := asPrepareLoad_failed e (by decide)
    exact absurd none ((AddrSpace.translates_iff.1 t).1.pbase r)
  · refine ⟨_, .start, rel.fill runs active unprepared spaces ?_ (fun u ne => Function.update_of_ne ne ..) ?_⟩
    · intro id' sp' va pa space t
      -- the new blocks are apart from the old ones
      obtain ⟨r', nz', has'⟩ := inv.spaces.byte_within space t
      refine keep _ fun r has => ?_
      have apart := bk.apart_old (nz r) (inv.spaces.used space nz')
      simp only [Block.Apart, Block.Has] at apart has has'
      omega
    · rintro va b ⟨pa, t, rfl⟩
      refine ⟨_, Function.update_self .., ?_⟩
      obtain ⟨-, -, -, zero⟩ := asPrepareLoad_ok inv.spaces.booted e
      obtain ⟨r, -, has⟩ := spaces.byte_within (AsSys.set_self ..) t
      exact (zero r _ has).symm

/-- An access of the current thread leaves the other threads' memories as they are. -/
lemma Related.accessed (rel : Related s m) (runs : s.Runs c) (active : s.phase (s.curthread c) = .active id)
    (space : s.spaces.space id = some sp) {am : Mach} (user : am.User sp.as) (sound : am.tlb.Sound)
    (vm : am.phys.vm = s.spaces.phys.vm)
    (mem : ∀ {id' sp' va pa}, id' ≠ id → s.spaces.space id' = some sp' → va < kseg0 → sp'.as.Translates va pa →
      am.phys.mem (pa + va % pageSize) = s.spaces.phys.mem (pa + va % pageSize))
    (others : ∀ u ≠ s.curthread c, m' u = m u)
    (own : ∀ {va b}, va < kseg0 → sp.as.Byte am.phys.mem va b → ∃ p, m' (s.curthread c) = some p ∧ p va = b) :
    Related (s.accessed c am) m' := by
  have inv := rel.inv
  have mine : (s.phase (s.curthread c)).space = some id := by rw [active]; rfl
  have phys : am.phys = ⟨s.spaces.phys.vm, am.phys.mem⟩ := by rw [← vm]
  have tlb : Function.update s.tlb c am.tlb c = am.tlb := Function.update_self ..
  have frame : Frame s (s.accessed c am) c := by
    refine ⟨rfl, fun _ _ => rfl, fun d ne => Function.update_of_ne ne .., fun _ _ _ _ => rfl, ?_⟩
    intro u ne id' sp' va pa active' space' low t
    refine mem ?_ space' low t
    rintro rfl
    exact ne (inv.own (by rw [active']; rfl) mine)
  refine rel.next frame (frame.inv inv runs.1 ?_ ?_ ?_ ?_ ?_) others ?_
  · show AsSys.Inv { s.spaces with phys := am.phys }
    rw [phys]
    exact inv.spaces.withMem _
  · intro id' h
    exact ⟨inv.space h, fun u ne h' => ne (inv.own h' h)⟩
  · intro id' h
    exact inv.created h
  · show (Function.update s.tlb c am.tlb c).Sound
    rw [tlb]
    exact sound
  · intro id' sp' h space'
    show (Function.update s.tlb c am.tlb c).Consistent sp'.as
    rw [tlb]
    cases active.symm.trans h
    cases space.symm.trans space'
    exact user.tlb
  · rintro va b ⟨id', sp', h, space', low, byte⟩
    cases active.symm.trans h
    cases space.symm.trans space'
    exact own low byte

/-- The machine as the current thread sees it is one of its address space. -/
lemma UserSys.Inv.user (inv : s.Inv) (runs : s.Runs c) (active : s.phase (s.curthread c) = .active id)
    (space : s.spaces.space id = some sp) : (s.mach c sp.as).User sp.as :=
  ⟨rfl, inv.tlb (.inl runs.1) active space⟩

/-- A translation that fails or succeeds moves no byte. -/
lemma Related.translate (rel : Related s m) (runs : s.Runs c) (active : s.phase (s.curthread c) = .active id)
    (space : s.spaces.space id = some sp) {faulttype va : Nat} {am : Mach} {x : Option Nat} (low : va < kseg0)
    (e : (s.mach c sp.as).translate faulttype va = .ok (am, x)) :
    Related (s.accessed c am) m ∧ ∀ p ∈ x, ∃ pa, sp.as.Translates va pa ∧ p = pa + va % pageSize := by
  obtain ⟨phys, user, hit⟩ := Mach.translate_spec (rel.inv.user runs active space) low e
  have sound := Mach.translate_sound (rel.inv.sound c) rfl low e
  refine ⟨rel.accessed runs active space user sound (by rw [phys]; rfl) ?_ (fun _ _ => rfl) ?_, hit⟩
  · intro id' sp' va' pa _ _ _ _
    rw [phys]
    rfl
  · intro va' b low' byte
    rw [phys] at byte
    exact rel.shows ⟨id, sp, active, space, low', byte⟩

/-- A load reads the thread's own memory. -/
lemma Related.load (rel : Related s m) (runs : s.Runs c) (active : s.phase (s.curthread c) = .active id)
    (space : s.spaces.space id = some sp) {va : Nat} {am : Mach} {b : UInt8} (low : va < kseg0)
    (e : (s.mach c sp.as).load va = .ok (am, some b)) :
    PrivateStep m (.load (s.curthread c) va b) m ∧ Related (s.accessed c am) m := by
  obtain ⟨⟨am', x⟩, et, e⟩ := bind_ok_iff.1 e
  obtain ⟨rel', hit⟩ := rel.translate runs active space low et
  cases x with
  | none => cases e
  | some x =>
    cases e
    obtain ⟨pa, t, rfl⟩ := hit x rfl
    obtain ⟨p, mem, byte⟩ := rel'.shows ⟨id, sp, active, space, low, pa, t, rfl⟩
    have phys : (s.accessed c am).spaces.phys = am.phys := rfl
    rw [phys] at byte
    rw [← byte]
    exact ⟨.load mem, rel'⟩

/-- A store writes the thread's own memory. -/
lemma Related.store (rel : Related s m) (runs : s.Runs c) (active : s.phase (s.curthread c) = .active id)
    (space : s.spaces.space id = some sp) {va : Nat} {am : Mach} {b : UInt8} (low : va < kseg0)
    (e : (s.mach c sp.as).store va b = .ok (am, true)) :
    ∃ m', PrivateStep m (.store (s.curthread c) va b) m' ∧ Related (s.accessed c am) m' := by
  have inv := rel.inv
  have small : kseg0 < 2 ^ 32 := by decide
  obtain ⟨⟨am', x⟩, et, e⟩ := bind_ok_iff.1 e
  obtain ⟨phys, user, hit⟩ := Mach.translate_spec (inv.user runs active space) low et
  have sound := Mach.translate_sound (inv.sound c) rfl low et
  cases x with
  | none => cases e
  | some x =>
    cases e
    obtain ⟨pa, t, rfl⟩ := hit x rfl
    have phys : am'.phys = s.spaces.phys := phys
    obtain ⟨p, mem, -⟩ := rel.shows ⟨id, sp, active, space, low, pa, t, rfl⟩
    refine ⟨_, .store mem, rel.accessed runs active space ⟨user.space, user.tlb⟩ sound (by rw [phys]) ?_
      (fun u ne => Function.update_of_ne ne ..) ?_⟩
    · intro id' sp' va' pa' ne space' low' t'
      rw [phys]
      refine Function.update_of_ne (fun same => ne ?_) ..
      exact (inv.spaces.byte_inj space space' (by omega) (by omega) t t' same).1
    · intro va' b' low' ⟨pa', t', byte⟩
      refine ⟨_, Function.update_self .., ?_⟩
      rw [phys] at byte
      by_cases here : va' = va
      · subst here
        cases t'.unique t
        rw [Function.update_self]
        exact (Function.update_self ..).symm.trans byte
      · rw [Function.update_of_ne here]
        have ne : pa' + va' % pageSize ≠ pa + va % pageSize := fun same =>
          here (inv.spaces.byte_inj space space (by omega) (by omega) t t' same).2
        have byte : Function.update s.spaces.phys.mem (pa + va % pageSize) b (pa' + va' % pageSize) = b' := byte
        rw [Function.update_of_ne ne] at byte
        obtain ⟨p', mem', byte'⟩ := rel.shows ⟨id, sp, active, space, low', pa', t', byte⟩
        cases mem.symm.trans mem'
        exact byte'

/-- A thread that ends takes nothing from the others. -/
lemma Related.retire (rel : Related s m) (runs : s.Runs c) {phase : UserPhase} {spaces' : AsSys} {tlbs : Fin n → Tlb}
    (spaces : spaces'.Inv) (mem : spaces'.phys.mem = s.spaces.phys.mem)
    (kept : ∀ u ≠ s.curthread c, ∀ id, (s.phase u).space = some id → spaces'.space id = s.spaces.space id)
    (space : ∀ id, phase.space = some id →
      (s.phase (s.curthread c)).space = some id ∧ spaces'.space id = s.spaces.space id)
    (gone : phase.addrspace = none) (tlb : ∀ d ≠ c, tlbs d = s.tlb d) (sound : (tlbs c).Sound)
    (others : ∀ u ≠ s.curthread c, m' u = m u) :
    Related { s.enter c phase with spaces := spaces', tlb := tlbs } m' := by
  have inv := rel.inv
  have here : Function.update s.phase (s.curthread c) phase (s.curthread c) = phase := Function.update_self ..
  have idle {x : UserPhase} (h : Function.update s.phase (s.curthread c) phase (s.curthread c) = x)
      (some : x.addrspace ≠ none) : False := by
    rw [here] at h
    rw [h] at gone
    exact some gone
  have frame : Frame s { s.enter c phase with spaces := spaces', tlb := tlbs } c :=
    ⟨rfl, fun u ne => Function.update_of_ne ne .., tlb, kept, fun _ _ _ _ _ _ _ _ _ _ => by rw [mem]⟩
  refine rel.next frame (frame.inv inv runs.1 spaces ?_ ?_ sound ?_) others ?_
  · intro id h
    have h : (Function.update s.phase (s.curthread c) phase (s.curthread c)).space = some id := h
    rw [here] at h
    obtain ⟨mine, same⟩ := space id h
    refine ⟨?_, fun u ne h' => ne (inv.own h' mine)⟩
    obtain ⟨sp, h'⟩ := inv.space mine
    exact ⟨sp, same.trans h'⟩
  · intro id h
    exact (idle h (Option.some_ne_none id)).elim
  · intro id sp h
    exact (idle h (Option.some_ne_none id)).elim
  · rintro va b ⟨id, sp, h, -⟩
    exact (idle h (Option.some_ne_none id)).elim

/-- `as_destroy` gives back the frames of its own address space only. -/
lemma Related.destroy (rel : Related s m) (runs : s.Runs c) (flushed : s.phase (s.curthread c) = .flushed id)
    (space : s.spaces.space id = some sp) {vm : Vm} (e : asDestroy s.spaces.phys.vm sp.as = .ok vm) :
    Related { s.enter c .exiting with spaces := s.spaces.set ⟨vm, s.spaces.phys.mem⟩ id none } m := by
  have inv := rel.inv
  refine rel.retire runs (inv.spaces.step (.destroy space e)) rfl ?_ nofun rfl (fun _ _ => rfl) (inv.sound c)
    (fun _ _ => rfl)
  intro u ne id' h
  refine AsSys.set_ne _ _ _ ?_
  rintro rfl
  exact ne (inv.own h (by rw [flushed]; rfl))

/-- The kernel's heap works in frames of its own. -/
lemma Related.heap (rel : Related s m) {spaces' : AsSys} (spaces : spaces'.Inv)
    (space : spaces'.space = s.spaces.space)
    (mem : ∀ {id sp va pa}, s.spaces.space id = some sp → sp.as.Translates va pa →
      spaces'.phys.mem (pa + va % pageSize) = s.spaces.phys.mem (pa + va % pageSize)) :
    Related { s with spaces := spaces' } m := by
  have inv := rel.inv
  refine ⟨⟨inv.threads, spaces, fun h => ?_, inv.own, fun h => ?_, inv.sound, fun on active h => ?_, inv.zombie⟩, ?_⟩
  · rw [space]
    exact inv.space h
  · rw [space]
    exact inv.created h
  · rw [space] at h
    exact inv.tlb on active h
  · rintro t va b ⟨id, sp, active, h, low, pa, t', rfl⟩
    have h : spaces'.space id = some sp := h
    rw [space] at h
    exact rel.shows ⟨id, sp, active, h, low, pa, t', (mem h t').symm⟩

/-- No page of the heap belongs to an address space. -/
lemma Related.heapWrite (rel : Related s m) {b : Block} {p : Nat} {x : UInt8} (heap : b.start ∈ s.spaces.heap)
    (used : s.spaces.phys.vm.Used b) (has : b.Has p) :
    Related { s with spaces :=
      { s.spaces with phys := ⟨s.spaces.phys.vm, Function.update s.spaces.phys.mem p x⟩ } } m := by
  have inv := rel.inv
  refine rel.heap (inv.spaces.withMem _) rfl ?_
  intro id sp va pa space t
  obtain ⟨r, nz, within⟩ := inv.spaces.byte_within space t
  refine Function.update_of_ne ?_ ..
  rintro rfl
  obtain same | apart := inv.spaces.booted.used_apart (inv.spaces.used space nz) used
  · have start : sp.as.pbase r = b.start := congrArg Block.start same
    have region : s.spaces.Owns (.region id r) b.start := ⟨fun z => nz (start.trans z), by rw [space]; exact start⟩
    cases inv.spaces.owned.inj region (show s.spaces.Owns (.heap b.start) b.start from ⟨rfl, heap⟩)
  · simp only [Block.Apart, Block.Has] at apart within has
    omega

/-- At boot no thread has written anything. -/
lemma UserSys.Boot.related (boot : s.Boot) (m : Memories) : Related s m := by
  obtain ⟨b, vm, mem, booted, spaces⟩ := boot.spaces
  obtain ⟨_, booted', ok⟩ := vmBoot_ok b
  cases booted.symm.trans booted'
  have kernel {t : Tid} {phase : UserPhase} (h : s.phase t = phase) (ne : phase ≠ .kernel) : False :=
    ne (h.symm.trans (boot.phase t))
  have idle {t : Tid} {id : Nat} (h : (s.phase t).space = some id) : False := by
    rw [boot.phase t] at h
    cases h
  refine ⟨⟨boot.threads.inv, ?_, fun h => (idle h).elim, fun h => (idle h).elim, fun h => (kernel h nofun).elim,
    fun c => (boot.tlb c).sound, fun _ h => (kernel h nofun).elim, fun {c z} mem => ?_⟩, ?_⟩
  · rw [spaces]
    exact AsSys.init_inv mem ok
  · rw [boot.threads.zombies c] at mem
    cases mem
  · rintro t va b ⟨id, sp, active, -⟩
    exact (kernel active nofun).elim

/-- Threads with memories of their own can do what the threads do with theirs. -/
lemma userSys_simulation : Simulation (userSys n) privateMemory Related where
  init boot := ⟨fun _ => none, fun _ => rfl, boot.related _⟩
  step {s m e s'} rel st := by
    have inv := rel.inv
    cases st with
    | schedule st exits => exact ⟨m, .tau, rel.schedule st exits⟩
    | create runs _ free created => exact ⟨m, .tau, rel.create runs free created⟩
    | activate runs created => exact ⟨m, .tau, rel.activate runs created⟩
    | define runs active space e => exact ⟨m, .tau, rel.define runs active space e⟩
    | prepare runs active space e => exact rel.prepare runs active space e
    | load runs active space low e => exact ⟨m, rel.load runs active space low e⟩
    | store runs active space low e => exact rel.store runs active space low e
    | fault runs active space low e => exact ⟨m, .tau, (rel.translate runs active space low e).1⟩
    | @clear c id runs active =>
      refine ⟨_, .stop, rel.retire runs inv.spaces rfl (fun _ _ _ _ => rfl) ?_ rfl (fun _ _ => rfl) (inv.sound c)
        (fun u ne => Function.update_of_ne ne ..)⟩
      rintro _ ⟨⟩
      exact ⟨by rw [active]; rfl, rfl⟩
    | @flush c id runs cleared =>
      refine ⟨m, .tau, rel.retire runs inv.spaces rfl (fun _ _ _ _ => rfl) ?_ rfl
        (fun d ne => Function.update_of_ne ne ..) ?_ (fun _ _ => rfl)⟩
      · rintro _ ⟨⟩
        exact ⟨by rw [cleared]; rfl, rfl⟩
      · rw [Function.update_self]
        exact (inv.sound c).asActivate
    | destroy runs flushed space e => exact ⟨m, .tau, rel.destroy runs flushed space e⟩
    | @leave c runs kernel =>
      exact ⟨m, .tau, rel.retire runs inv.spaces rfl (fun _ _ _ _ => rfl) nofun rfl (fun _ _ => rfl) (inv.sound c)
        (fun _ _ => rfl)⟩
    | heapAlloc e => exact ⟨m, .tau, rel.heap (inv.spaces.step (.heapAlloc e)) rfl (fun _ _ => rfl)⟩
    | heapFree mem e => exact ⟨m, .tau, rel.heap (inv.spaces.step (.heapFree mem e)) rfl (fun _ _ => rfl)⟩
    | heapWrite heap used has => exact ⟨m, .tau, rel.heapWrite heap used has⟩

/-- A private memory holds what has been stored last. -/
lemma PrivateStep.lastStored {e : UserEvent} (st : PrivateStep m e m') (t : Tid) (va : Nat) :
    (m' t).map (· va) = lastStored t va ((m t).map (· va)) e := by
  cases st with
  | tau | load => rfl
  | @start u =>
    by_cases here : u = t
    · rw [here, Function.update_self, Kern.lastStored, if_pos rfl, Option.map_some]
    · rw [Function.update_of_ne (Ne.symm here), Kern.lastStored, if_neg here]
  | @store u p va' b mem =>
    by_cases here : u = t
    · subst here
      rw [Function.update_self, mem, Option.map_some, Kern.lastStored]
      by_cases same : va' = va
      · rw [same, Function.update_self, if_pos ⟨rfl, rfl⟩]
      · rw [Function.update_of_ne (Ne.symm same), if_neg (fun h => same h.2), Option.map_some]
    · rw [Function.update_of_ne (Ne.symm here), Kern.lastStored, if_neg (fun h => here h.1)]
  | @stop u =>
    by_cases here : u = t
    · rw [here, Function.update_self, Kern.lastStored, if_pos rfl, Option.map_none]
    · rw [Function.update_of_ne (Ne.symm here), Kern.lastStored, if_neg here]

/-- After a run a thread's memory holds the last byte it stored at each address. -/
lemma privateMemory_run {es : List UserEvent} (run : privateMemory.Run es m) (t : Tid) (va : Nat) :
    (m t).map (· va) = es.foldl (lastStored t va) none := by
  induction run with
  | init none => rw [none t]; rfl
  | step _ st ih => rw [List.foldl_append, ← ih]; exact st.lastStored t va

/-- A load returns the last byte the thread itself stored there. -/
lemma privateMemory_load {es es₁ es₂ : List UserEvent} {t : Tid} {va : Nat} {b : UInt8}
    (run : privateMemory.Run es m) (eq : es = es₁ ++ .load t va b :: es₂) :
    es₁.foldl (lastStored t va) none = some b := by
  induction run generalizing es₂ with
  | init => exact absurd eq.symm (List.append_ne_nil_of_right_ne_nil _ (List.cons_ne_nil _ _))
  | @step es m m' e run st ih =>
    obtain rfl | ⟨es₃, e', rfl⟩ := List.eq_nil_or_concat es₂
    · obtain ⟨rfl, last⟩ := List.append_inj' eq rfl
      cases last
      cases st with
      | load mem => rw [← privateMemory_run run, mem, Option.map_some]
    · rw [List.concat_eq_append, ← List.cons_append, ← List.append_assoc] at eq
      exact ih (List.append_inj' eq rfl).1

end

/-- User memory is private, for any number of CPUs, threads and programs and in any interleaving in which calls into the
page allocator exclude each other, while threads are switched, migrated, started and destroyed: the loads and stores are
those of threads with memories of their own, so that a load finds what its own thread has stored last. At no time, also
while `as_activate` runs, does a TLB hold two entries for one page, and no thread is destroyed that has an address
space. -/
theorem user_memory_private {n : Nat} {s : UserSys n} {es : List UserEvent} (run : (userSys n).Run es s) :
    (∃ m, privateMemory.Run es m) ∧
      (∀ es₁ es₂ t va b, es = es₁ ++ .load t va b :: es₂ → es₁.foldl (lastStored t va) none = some b) ∧
      (∀ c k i j, ((s.tlb c).activated k i).ehi &&& tlbhiVpage = ((s.tlb c).activated k j).ehi &&& tlbhiVpage → i = j) ∧
      ∀ c, ∀ z ∈ s.zombies c, (s.phase z).addrspace = none := by
  obtain ⟨m, run', rel⟩ := userSys_simulation.run run
  refine ⟨⟨m, run'⟩, fun es₁ es₂ t va b eq => privateMemory_load run' eq, ?_, ?_⟩
  · intro c k
    exact ((rel.inv.sound c).activated k).distinct
  · intro c z mem
    rw [rel.inv.zombie mem]
    rfl

/-- The two CPUs of `twoCpus`, with user memory. -/
def twoUsers (vm : Vm) : UserSys 2 where
  toThreadSys := twoCpus
  spaces := AsSys.init vm fun _ => 0
  tlb _ i := ⟨(0x81000 + i) * 4096, 0⟩
  phase _ := .kernel

/-- Two user threads may start from a fresh boot. -/
lemma twoUsers_boot {vm : Vm} (boot : vmBoot megaBoot = .ok vm) : (twoUsers vm).Boot := by
  have page (i : Fin numTlb) : (0x81000 + i.val) * 4096 &&& tlbhiVpage = (0x81000 + i.val) * 4096 := by
    have lt : i.val < 64 := i.isLt
    exact (and_pageFrame_eq_iff (by omega)).2 (Nat.dvd_mul_left _ _)
  refine ⟨twoCpus_boot, ⟨_, vm, _, boot, rfl⟩, fun _ => ⟨fun _ => rfl, fun i => ?_, fun i j same => ?_⟩, fun _ => rfl⟩
  · show 0x81000000 ≤ (0x81000 + i.val) * 4096 &&& tlbhiVpage
    rw [page]
    omega
  · have same : (0x81000 + i.val) * 4096 &&& tlbhiVpage = (0x81000 + j.val) * 4096 &&& tlbhiVpage := same
    rw [page, page] at same
    omega

/-- A program of two regions is loaded in the thread of the first CPU, stores a byte and loads it. -/
theorem user_memory_private_program : ∃ vm es s, (userSys 2).init (twoUsers vm) ∧
    (userSys 2).Run (es ++ [.load 0 0x400000 7]) s ∧ es.foldl (lastStored 0 0x400000) none = some 7 := by
  let as₀ : AddrSpace := ⟨0, 0, 0, 0, 0, 0, 0⟩
  let as₁ := (asDefineRegion as₀ 0x400000 0x1234).1
  let as₂ := (asDefineRegion as₁ 0x10000000 100).1
  have eval : (do
      let vm ← vmBoot megaBoot
      let r ← asPrepareLoad ⟨vm, fun _ => 0⟩ as₂
      let w ← Mach.store ⟨r.1, some r.2.1, asActivate, 0, fun _ => false⟩ 0x400000 7
      let l ← Mach.load ⟨w.1.phys, some r.2.1, w.1.tlb, 0, fun _ => false⟩ 0x400000
      Except.ok (r.2.1, r.2.2, w.2, l.2)).toOption = some (twoRegions, 0, true, some 7) := by decide +kernel
  have eval := ok_of_toOption eval
  simp only [bind_ok_iff] at eval
  obtain ⟨vm, boot, ⟨ph, as, res⟩, prep, ⟨m₁, ok⟩, store, ⟨m₂, x⟩, load, eq⟩ := eval
  cases eq
  have start : (userSys 2).init (twoUsers vm) := twoUsers_boot boot
  have runs : (twoUsers vm).Runs 0 := ⟨rfl, rfl⟩
  have created := (Lts.Run.init start).step (@UserStep.create _ _ 0 0 true _ runs rfl rfl rfl)
  have active := created.step (@UserStep.activate _ _ 0 0 runs rfl)
  have define₁ := active.step (@UserStep.define _ _ 0 0 _ _ _ _ _ runs rfl rfl (show _ = (as₁, 0) from rfl))
  have define₂ := define₁.step (@UserStep.define _ _ 0 0 _ _ _ _ _ runs rfl rfl (show _ = (as₂, 0) from rfl))
  have prepared := define₂.step (@UserStep.prepare _ _ 0 0 _ _ _ _ runs rfl rfl prep)
  have stored := prepared.step (@UserStep.store _ _ 0 0 ⟨twoRegions, true⟩ _ _ _ runs rfl rfl (by decide) store)
  have loaded := stored.step (@UserStep.load _ _ 0 0 ⟨twoRegions, true⟩ _ _ _ runs rfl rfl (by decide) load)
  exact ⟨vm, _, _, start, loaded, (user_memory_private loaded).2.1 _ [] 0 0x400000 7 rfl⟩

end PDS.Kern
