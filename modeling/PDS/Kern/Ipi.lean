import PDS.Kern.Machine

/-!
# Interprocessor interrupts

Port of the IPI functions of `kern/thread/thread.c` for one target CPU: `ipi_send`, `ipi_tlbshootdown` and
`interprocessor_interrupt`. Each of them holds `c_ipi_lock` of the target from its first access to its last,
so calls on other CPUs and interrupts on the target happen one after the other.

`c_numshootdown` is the number of queued mappings or `TLBSHOOTDOWN_ALL`. `ipi_tlbshootdown` treats
`TLBSHOOTDOWN_ALL` as a number: the next request is stored at index `-1` and sets the number to `0`.
`shootdowns_kept_iff` says how many requests between two interrupts are one too many.
-/

namespace PDS.Kern

/-- The mapping that a CPU is asked to invalidate (C `struct tlbshootdown`). -/
structure Tlbshootdown where
  tsAddrspace : Nat
  tsVaddr : Nat
deriving DecidableEq, Repr

/-- Invalidations that are taken before the whole TLB is flushed (C `TLBSHOOTDOWN_MAX`). -/
def tlbshootdownMax : Nat := 16

/-- C `TLBSHOOTDOWN_ALL`. -/
def tlbshootdownAll : Int := -1

/-- The IPI types (C `IPI_PANIC`, `IPI_OFFLINE`, `IPI_UNIDLE` and `IPI_TLBSHOOTDOWN`). -/
inductive IpiCode where
  | panic
  | offline
  | unidle
  | tlbshootdown
deriving DecidableEq, Repr

/-- The fields of `struct cpu` that `c_ipi_lock` protects. -/
structure CpuIpi where
  /-- the bits of `c_ipi_pending` -/
  pending : IpiCode → Bool
  /-- the memory around `c_shootdown`, in elements counted from the start of the array -/
  shootdown : Int → Tlbshootdown
  numshootdown : Int

/-- The fields as `cpu_create` leaves them; the array is not initialized. -/
def CpuIpi.create (shootdown : Int → Tlbshootdown) : CpuIpi := ⟨fun _ => false, shootdown, 0⟩

/-- Sets a bit of `c_ipi_pending` (C `ipi_send`). -/
def ipiSend (c : CpuIpi) (code : IpiCode) : CpuIpi :=
  { c with pending := Function.update c.pending code true }

/-- Asks for the invalidation of a mapping. The second component is the array index that is written
(C `ipi_tlbshootdown`). -/
def ipiTlbshootdown (c : CpuIpi) (mapping : Tlbshootdown) : CpuIpi × Option Int :=
  let n := c.numshootdown
  if n = tlbshootdownMax then
    (ipiSend { c with numshootdown := tlbshootdownAll } .tlbshootdown, none)
  else
    (ipiSend { c with shootdown := Function.update c.shootdown n mapping, numshootdown := n + 1 }
      .tlbshootdown, some n)

/-- A call into the VM system (C `vm_tlbshootdown_all` and `vm_tlbshootdown`). -/
inductive VmCall where
  | all
  | one (mapping : Tlbshootdown)
deriving DecidableEq, Repr

/-- The calls that the pending requests lead to. -/
def CpuIpi.calls (c : CpuIpi) : List VmCall :=
  if c.numshootdown = tlbshootdownAll then [.all]
  else (List.range c.numshootdown.toNat).map (fun i : Nat => .one (c.shootdown i))

/-- Handles the interrupt on the target; `vm` is the VM system, which may panic. The second component are the
calls made to it. A panic of another CPU or a request to go offline halts the CPU
(C `interprocessor_interrupt`). -/
def interprocessorInterrupt (vm : VmCall → Except Halt Unit) (c : CpuIpi) :
    Except Halt (CpuIpi × List VmCall) :=
  if c.pending .panic then .error .stop
  else if c.pending .offline then .error .stop
  else if c.pending .tlbshootdown then do
    c.calls.forM vm
    .ok ({ c with numshootdown := 0, pending := fun _ => false }, c.calls)
  else .ok ({ c with pending := fun _ => false }, [])

/-- What happens to the target CPU. -/
inductive IpiEvent where
  | send (code : IpiCode)
  | shootdown (mapping : Tlbshootdown)
  | interrupt
deriving DecidableEq, Repr

/-- The target CPU with the array indices written so far. -/
structure IpiRun where
  cpu : CpuIpi
  written : List Int

namespace IpiRun

/-- The target before the first request. -/
def boot (shootdown : Int → Tlbshootdown) : IpiRun := ⟨.create shootdown, []⟩

/-- One event. -/
def step (vm : VmCall → Except Halt Unit) (s : IpiRun) : IpiEvent → Except Halt IpiRun
  | .send code => .ok { s with cpu := ipiSend s.cpu code }
  | .shootdown mapping =>
    let (cpu, index) := ipiTlbshootdown s.cpu mapping
    .ok ⟨cpu, index.toList ++ s.written⟩
  | .interrupt => do
    let (cpu, _) ← interprocessorInterrupt vm s.cpu
    .ok { s with cpu := cpu }

/-- A sequence of events. -/
def run (vm : VmCall → Except Halt Unit) (s : IpiRun) (evs : List IpiEvent) : Except Halt IpiRun :=
  evs.foldlM (step vm) s

end IpiRun

/-- The mappings requested since the last interrupt, after one more event. -/
def request (reqs : List Tlbshootdown) : IpiEvent → List Tlbshootdown
  | .send _ => reqs
  | .shootdown mapping => mapping :: reqs
  | .interrupt => []

/-- The mappings requested since the last interrupt. -/
def requests (evs : List IpiEvent) : List Tlbshootdown := evs.foldl request []

/-- No request is lost: the number is valid, only elements of the array have been written, and every mapping
requested since the last interrupt is queued or covered by a flush, so that the next interrupt that
returns has passed it on. -/
structure IpiRun.Kept (vm : VmCall → Except Halt Unit) (s : IpiRun) (reqs : List Tlbshootdown) : Prop where
  number : s.cpu.numshootdown = tlbshootdownAll ∨
    0 ≤ s.cpu.numshootdown ∧ s.cpu.numshootdown ≤ tlbshootdownMax
  written : ∀ i ∈ s.written, 0 ≤ i ∧ i < tlbshootdownMax
  queued : ∀ m ∈ reqs, s.cpu.numshootdown = tlbshootdownAll ∨
    ∃ i : Nat, i < s.cpu.numshootdown ∧ s.cpu.shootdown i = m
  invalidated : ∀ cpu calls, interprocessorInterrupt vm s.cpu = .ok (cpu, calls) →
    ∀ m ∈ reqs, .all ∈ calls ∨ .one m ∈ calls

/-- The CPU after at most one request more than the array holds. -/
structure IpiRun.Filled (s : IpiRun) (reqs : List Tlbshootdown) : Prop where
  number : s.cpu.numshootdown = if reqs.length ≤ tlbshootdownMax then (reqs.length : Int) else tlbshootdownAll
  pending : reqs ≠ [] → s.cpu.pending .tlbshootdown = true
  written : ∀ i ∈ s.written, 0 ≤ i ∧ i < tlbshootdownMax
  queued : reqs.length ≤ tlbshootdownMax → ∀ m ∈ reqs, ∃ i : Nat, i < reqs.length ∧ s.cpu.shootdown i = m

variable {vm : VmCall → Except Halt Unit} {s s' : IpiRun} {reqs : List Tlbshootdown}

/-- The interrupt is pending. -/
lemma ipiSend_pending (c : CpuIpi) (code : IpiCode) : (ipiSend c code).pending code = true :=
  Function.update_self ..

/-- A request to a full queue asks for a flush. -/
lemma step_full {m : Tlbshootdown} (full : s.cpu.numshootdown = tlbshootdownMax) :
    s.step vm (.shootdown m) =
      .ok ⟨ipiSend { s.cpu with numshootdown := tlbshootdownAll } .tlbshootdown, s.written⟩ := by
  simp [IpiRun.step, ipiTlbshootdown, full]

/-- Any other request is stored at the index that the number gives. -/
lemma step_room {m : Tlbshootdown} (room : s.cpu.numshootdown ≠ tlbshootdownMax) :
    s.step vm (.shootdown m) =
      .ok ⟨ipiSend { s.cpu with
          shootdown := Function.update s.cpu.shootdown s.cpu.numshootdown m
          numshootdown := s.cpu.numshootdown + 1 } .tlbshootdown,
        s.cpu.numshootdown :: s.written⟩ := by
  simp [IpiRun.step, ipiTlbshootdown, room]

/-- An interrupt that returns has made the pending calls and cleared the queue, or found nothing to do. -/
lemma interrupt_cases {c c' : CpuIpi} {calls : List VmCall}
    (e : interprocessorInterrupt vm c = .ok (c', calls)) :
    (c.pending .tlbshootdown = true ∧ calls = c.calls ∧ c'.numshootdown = 0) ∨
      (c.pending .tlbshootdown = false ∧ c'.numshootdown = c.numshootdown) := by
  rw [interprocessorInterrupt] at e
  split_ifs at e with hp ho hs
  · obtain ⟨-, -, e⟩ := bind_ok_iff.1 e
    cases e
    exact .inl ⟨hs, rfl, rfl⟩
  · cases e
    exact .inr ⟨Bool.eq_false_iff.2 hs, rfl⟩

/-- No request is queued at boot. -/
lemma filled_boot (shootdown : Int → Tlbshootdown) : (IpiRun.boot shootdown).Filled [] where
  number := rfl
  pending h := absurd rfl h
  written _ h := nomatch h
  queued _ _ h := nomatch h

/-- Another interrupt leaves the requests alone. -/
lemma IpiRun.Filled.send (fl : s.Filled reqs) (code : IpiCode) :
    ({ s with cpu := ipiSend s.cpu code } : IpiRun).Filled reqs where
  number := fl.number
  pending ne := by
    by_cases same : IpiCode.tlbshootdown = code
    · subst same
      exact ipiSend_pending ..
    · exact (Function.update_of_ne same ..).trans (fl.pending ne)
  written := fl.written
  queued := fl.queued

/-- A request is queued while there is room; the one after that asks for a flush. -/
lemma IpiRun.Filled.shootdown (fl : s.Filled reqs) (room : reqs.length ≤ tlbshootdownMax) (m : Tlbshootdown)
    (e : s.step vm (.shootdown m) = .ok s') : s'.Filled (m :: reqs) := by
  have num := fl.number
  rw [if_pos room] at num
  by_cases full : s.cpu.numshootdown = tlbshootdownMax
  · have len : reqs.length = tlbshootdownMax := by omega
    rw [step_full full] at e
    cases e
    refine ⟨?_, fun _ => ipiSend_pending .., fl.written, ?_⟩
    · rw [if_neg (by rw [List.length_cons]; omega)]
      rfl
    · intro le
      rw [List.length_cons] at le
      omega
  · have lt : reqs.length < tlbshootdownMax := by omega
    rw [step_room full] at e
    cases e
    refine ⟨?_, fun _ => ipiSend_pending .., ?_, ?_⟩
    · rw [if_pos (by rw [List.length_cons]; omega), List.length_cons, Nat.cast_succ, ← num]
      rfl
    · intro i h
      cases h with
      | head => omega
      | tail _ h => exact fl.written i h
    · intro _ m' h
      cases h with
      | head =>
        refine ⟨reqs.length, by rw [List.length_cons]; omega, ?_⟩
        rw [← num]
        exact Function.update_self s.cpu.numshootdown m s.cpu.shootdown
      | tail _ h =>
        obtain ⟨i, lt', hi⟩ := fl.queued room m' h
        refine ⟨i, by rw [List.length_cons]; omega, ?_⟩
        have ne : (i : Int) ≠ s.cpu.numshootdown := by omega
        exact (Function.update_of_ne ne m s.cpu.shootdown).trans hi

/-- The interrupt takes all requests. -/
lemma IpiRun.Filled.interrupt (fl : s.Filled reqs) (room : reqs.length ≤ tlbshootdownMax + 1)
    (e : s.step vm .interrupt = .ok s') : s'.Filled [] := by
  obtain ⟨⟨c, calls⟩, ei, e⟩ := bind_ok_iff.1 e
  cases e
  refine ⟨?_, fun h => absurd rfl h, fl.written, fun _ _ h => nomatch h⟩
  obtain ⟨-, -, num⟩ | ⟨clear, num⟩ := interrupt_cases ei
  · exact num
  · -- without the bit there is no request
    cases reqs with
    | nil => exact num.trans fl.number
    | cons m reqs =>
      rw [fl.pending (List.cons_ne_nil _ _)] at clear
      cases clear

/-- One event keeps the queue filled, unless it is a request to a CPU with a flush pending. -/
lemma IpiRun.Filled.step (fl : s.Filled reqs) {ev : IpiEvent} (room : reqs.length ≤ tlbshootdownMax + 1)
    (room' : (request reqs ev).length ≤ tlbshootdownMax + 1) (e : s.step vm ev = .ok s') :
    s'.Filled (request reqs ev) := by
  cases ev with
  | send code =>
    cases e
    exact fl.send code
  | shootdown m =>
    rw [request, List.length_cons] at room'
    exact fl.shootdown (by omega) m e
  | interrupt => exact fl.interrupt room e

/-- A filled queue has lost nothing. -/
lemma IpiRun.Filled.kept (fl : s.Filled reqs) : s.Kept vm reqs := by
  have queued : ∀ m ∈ reqs, s.cpu.numshootdown = tlbshootdownAll ∨
      ∃ i : Nat, i < s.cpu.numshootdown ∧ s.cpu.shootdown i = m := by
    intro m hm
    have num := fl.number
    split_ifs at num with room
    · obtain ⟨i, lt, hi⟩ := fl.queued room m hm
      exact .inr ⟨i, by omega, hi⟩
    · exact .inl num
  refine ⟨?_, fl.written, queued, ?_⟩
  · have num := fl.number
    split_ifs at num with room
    · exact .inr (by omega)
    · exact .inl num
  · intro c calls e m hm
    have set := fl.pending (List.ne_nil_of_mem hm)
    obtain ⟨-, rfl, -⟩ | ⟨clear, -⟩ := interrupt_cases e
    · rw [CpuIpi.calls]
      split_ifs with all
      · exact .inl (List.mem_singleton_self _)
      · obtain h | ⟨i, lt, hi⟩ := queued m hm
        · exact absurd h all
        · have lt' : i < s.cpu.numshootdown.toNat := by omega
          exact .inr (List.mem_map.2 ⟨i, List.mem_range.2 lt', by rw [hi]⟩)
    · rw [set] at clear
      cases clear

/-- A request to a CPU with a flush pending is written outside of the array. -/
lemma IpiRun.Filled.overflow (fl : s.Filled reqs) {m : Tlbshootdown} (len : reqs.length = tlbshootdownMax + 1)
    (e : s.step vm (.shootdown m) = .ok s') : ¬ s'.Kept vm (m :: reqs) := by
  intro kept
  have num := fl.number
  rw [if_neg (by omega)] at num
  have room : s.cpu.numshootdown ≠ tlbshootdownMax := by
    rw [num]
    decide
  rw [step_room room, num] at e
  cases e
  exact absurd (kept.written tlbshootdownAll List.mem_cons_self).1 (by decide)

/-- A run and one more event. -/
lemma IpiRun.run_snoc {evs : List IpiEvent} {ev : IpiEvent} :
    s.run vm (evs ++ [ev]) = .ok s' ↔ ∃ t, s.run vm evs = .ok t ∧ t.step vm ev = .ok s' := by
  rw [IpiRun.run, List.foldlM_append, bind_ok_iff]
  simp [IpiRun.run]

/-- The requests after one more event. -/
lemma requests_snoc (evs : List IpiEvent) (ev : IpiEvent) :
    requests (evs ++ [ev]) = request (requests evs) ev := by
  simp [requests]

/-- The queue after a sequence of events with no burst of requests. -/
lemma run_filled {shootdown : Int → Tlbshootdown} {evs : List IpiEvent}
    (h : (IpiRun.boot shootdown).run vm evs = .ok s)
    (room : ∀ pre, pre <+: evs → (requests pre).length ≤ tlbshootdownMax + 1) : s.Filled (requests evs) := by
  induction evs using List.reverseRecOn generalizing s with
  | nil =>
    cases h
    exact filled_boot shootdown
  | append_singleton evs ev ih =>
    obtain ⟨t, ht, e⟩ := IpiRun.run_snoc.1 h
    have sub := List.prefix_append evs [ev]
    have fl := ih ht (fun pre p => room pre (p.trans sub))
    have last := room _ (List.prefix_refl _)
    rw [requests_snoc] at last ⊢
    exact fl.step (room _ sub) last e

/-- The requests are kept in every state of a sequence of events exactly when there are never more than
`TLBSHOOTDOWN_MAX + 1` of them between two interrupts. The functions `vm` of the virtual memory system are any: those of
`vm.c` panic, so that with them no interrupt that finds a request returns, and what is said of interrupts that return is
said of other systems. -/
theorem shootdowns_kept_iff (vm : VmCall → Except Halt Unit) (shootdown : Int → Tlbshootdown)
    (evs : List IpiEvent) (s : IpiRun) (h : (IpiRun.boot shootdown).run vm evs = .ok s) :
    (∀ pre t, pre <+: evs → (IpiRun.boot shootdown).run vm pre = .ok t → t.Kept vm (requests pre)) ↔
      ∀ pre, pre <+: evs → (requests pre).length ≤ tlbshootdownMax + 1 := by
  constructor
  · intro kept
    induction evs using List.reverseRecOn generalizing s with
    | nil =>
      intro pre p
      rw [List.prefix_nil.1 p]
      exact Nat.zero_le _
    | append_singleton evs ev ih =>
      obtain ⟨t, ht, e⟩ := IpiRun.run_snoc.1 h
      have sub := List.prefix_append evs [ev]
      have room := ih t ht (fun pre u p => kept pre u (p.trans sub))
      intro pre p
      obtain rfl | p := List.prefix_concat_iff.1 p
      · have fl := run_filled ht room
        have before := room _ (List.prefix_refl _)
        rw [requests_snoc]
        cases ev with
        | send => exact before
        | interrupt => exact Nat.zero_le _
        | shootdown m =>
          by_contra many
          rw [request, List.length_cons] at many
          have bad := fl.overflow (by omega) e
          have good := kept _ s (List.prefix_refl _) h
          rw [requests_snoc] at good
          exact bad good
      · exact room pre p
  · intro room pre t p ht
    exact (run_filled ht (fun q hq => room q (hq.trans p))).kept

/-- A request for each page from `0` on. -/
def burst (n : Nat) : List IpiEvent := (List.range n).map (fun i => .shootdown ⟨0, i * pageSize⟩)

/-- Seventeen requests, the interrupt, and three more requests. -/
theorem shootdowns_kept_flush : ∃ s,
    (IpiRun.boot (fun _ => ⟨0, 0⟩)).run (fun _ => .ok ()) (burst 17 ++ .interrupt :: burst 3) = .ok s ∧
    ∀ pre t, pre <+: burst 17 ++ .interrupt :: burst 3 →
      (IpiRun.boot (fun _ => ⟨0, 0⟩)).run (fun _ => .ok ()) pre = .ok t →
      t.Kept (fun _ => .ok ()) (requests pre) := by
  refine ⟨_, rfl, (shootdowns_kept_iff _ _ _ _ rfl).2 ?_⟩
  intro pre p
  have room : ∀ pre ∈ (burst 17 ++ .interrupt :: burst 3).inits,
      (requests pre).length ≤ tlbshootdownMax + 1 := by decide +kernel
  exact room pre ((List.mem_inits _ _).2 p)

/-- After eighteen requests the number is `0`: the next interrupt invalidates nothing, and the last request has
been stored in front of the array. -/
theorem shootdowns_lost : ∃ s,
    (IpiRun.boot (fun _ => ⟨0, 0⟩)).run (fun _ => .ok ()) (burst 18) = .ok s ∧
    s.cpu.numshootdown = 0 ∧ tlbshootdownAll ∈ s.written ∧
    (∀ c calls, interprocessorInterrupt (fun _ => .ok ()) s.cpu = .ok (c, calls) → calls = []) ∧
    ¬ s.Kept (fun _ => .ok ()) (requests (burst 18)) := by
  refine ⟨_, rfl, rfl, List.mem_cons_self, ?_, ?_⟩
  · intro c calls e
    cases e
    rfl
  · intro kept
    exact absurd (kept.written tlbshootdownAll List.mem_cons_self).1 (by decide)

end PDS.Kern
