import PDS.Kern.ThreadRun
import PDS.Kern.AddrspaceRun
import PDS.Kern.UserMem
import PDS.Lib.Simulation

/-!
# User memory of threads

The thread system of `Thread.lean` on top of the address spaces of `AddrspaceRun.lean`, with one TLB for each CPU:
what `runprogram`, `load_elf` and `thread_exit` do with `t_addrspace`, and the loads and stores of a thread to its user
memory, in any interleaving. `thread_switch` and `thread_startup` call `as_activate` when the next thread has an address
space, and leave the TLB alone when it has none.

Calls into the page allocator exclude each other: as in `AddrspaceRun.lean`, `as_prepare_load`, `as_destroy` and a call
by the kernel heap are one step each. This is an assumption. `alloc_ppages` and `free_ppages` take no lock, and two of
them that run on two CPUs, or one of them preempted by the other, can give the same pages to both. A load or store is one
step too, with the page fault that it may cause.

Above it, `privateMemory`: each thread that runs a program has a memory of its own, and there is nothing else.
-/

namespace PDS.Kern
open Word Extent

/-- What a thread is doing with its address space, which `id` stands for. -/
inductive UserPhase where
  /-- there is none -/
  | kernel
  /-- `runprogram` has created it; `as_activate` comes next -/
  | created (id : Nat)
  /-- `runprogram` fills it, or the program runs -/
  | active (id : Nat)
  /-- `thread_exit` has cleared `t_addrspace`; `as_activate` comes next -/
  | cleared (id : Nat)
  /-- `as_destroy` comes next -/
  | flushed (id : Nat)
  /-- `thread_exit` has only `thread_switch` left to call -/
  | exiting
deriving DecidableEq, Repr

/-- C `t_addrspace`. -/
def UserPhase.addrspace : UserPhase → Option Nat
  | .created id | .active id => some id
  | .kernel | .cleared _ | .flushed _ | .exiting => none

/-- The address space that the thread is responsible for. -/
def UserPhase.space : UserPhase → Option Nat
  | .created id | .active id | .cleared id | .flushed id => some id
  | .kernel | .exiting => none

/-- The thread system of `n` CPUs with user memory. -/
structure UserSys (n : Nat) extends ThreadSys n where
  spaces : AsSys
  tlb : Fin n → Tlb
  phase : Tid → UserPhase

/-- What can be seen of a step. -/
inductive UserEvent where
  | tau
  /-- the thread has got memory -/
  | start (t : Tid)
  | load (t : Tid) (vaddr : Nat) (b : UInt8)
  | store (t : Tid) (vaddr : Nat) (b : UInt8)
  /-- the thread has given its memory up -/
  | stop (t : Tid)
deriving DecidableEq, Repr

namespace UserSys

variable {n : Nat}

/-- The CPU runs the code of its current thread. -/
def Runs (s : UserSys n) (c : Fin n) : Prop := s.mode c = .running ∧ s.mig c = none

/-- `switchframe_switch` on the CPU `c`: "If we have an address space, activate it in the MMU." -/
def Switches (s : UserSys n) (t : ThreadSys n) (c : Fin n) : Prop :=
  t.mode c = .exorcising ∧ s.mode c ≠ .exorcising ∧ (s.phase (t.curthread c)).addrspace ≠ none

instance (s : UserSys n) (t : ThreadSys n) (c : Fin n) : Decidable (s.Switches t c) :=
  inferInstanceAs (Decidable (_ ∧ _ ∧ _))

/-- `thread_exit` calls `thread_switch` on the CPU `c`. -/
def Exits (s : UserSys n) (t : ThreadSys n) (c : Fin n) : Prop :=
  s.mode c = .running ∧ t.zombies c = s.zombies c ++ [s.curthread c]

/-- A step of the thread system. `thread_create` sets `t_addrspace` to `NULL`. -/
def schedule (s : UserSys n) (t : ThreadSys n) : UserSys n where
  toThreadSys := t
  spaces := s.spaces
  tlb c := if s.Switches t c then asActivate else s.tlb c
  phase u := if s.live u then s.phase u else .kernel

/-- The current thread comes to the next phase. -/
def enter (s : UserSys n) (c : Fin n) (phase : UserPhase) : UserSys n :=
  { s with phase := Function.update s.phase (s.curthread c) phase }

/-- The machine as the current thread sees it for the duration of one access. -/
def mach (s : UserSys n) (c : Fin n) (as : AddrSpace) : Mach where
  phys := s.spaces.phys
  as := some as
  tlb := s.tlb c
  clock := 0
  preempted _ := false

/-- The machine after an access. -/
def accessed (s : UserSys n) (c : Fin n) (m : Mach) : UserSys n :=
  { s with
    spaces := { s.spaces with phys := m.phys }
    tlb := Function.update s.tlb c m.tlb }

end UserSys

open UserSys

/-- One step of the threads and their user memory. No thread calls the page allocator while another one is in it. -/
inductive UserStep {n : Nat} : UserSys n → UserEvent → UserSys n → Prop where
  | schedule {s t} : ThreadStep s.toThreadSys t → (∀ c, s.Exits t c → s.phase (s.curthread c) = .exiting) →
    UserStep s .tau (s.schedule t)
  /-- `curthread->t_addrspace = as_create();` -/
  | create {s c id k as} : s.Runs c → s.phase (s.curthread c) = .kernel → s.spaces.space id = none →
    asCreate k = some as →
    UserStep s .tau { s.enter c (.created id) with spaces := s.spaces.set s.spaces.phys id (some ⟨as, false⟩) }
  /-- `as_activate(curthread->t_addrspace);` -/
  | activate {s c id} : s.Runs c → s.phase (s.curthread c) = .created id →
    UserStep s .tau { s.enter c (.active id) with tlb := Function.update s.tlb c asActivate }
  /-- `as_define_region`, called by `load_elf` for a segment -/
  | define {s c id as vaddr sz as' result} : s.Runs c → s.phase (s.curthread c) = .active id →
    s.spaces.space id = some ⟨as, false⟩ → asDefineRegion as vaddr sz = (as', result) →
    UserStep s .tau { s with spaces := s.spaces.set s.spaces.phys id (some ⟨as', false⟩) }
  /-- `as_prepare_load`, called by `load_elf` -/
  | prepare {s c id as ph as' result} : s.Runs c → s.phase (s.curthread c) = .active id →
    s.spaces.space id = some ⟨as, false⟩ → asPrepareLoad s.spaces.phys as = .ok (ph, as', result) →
    UserStep s (if result = 0 then .start (s.curthread c) else .tau)
      { s with spaces := s.spaces.set ph id (some ⟨as', true⟩) }
  /-- a load from a user address, by the program or by the kernel -/
  | load {s c id sp va m b} : s.Runs c → s.phase (s.curthread c) = .active id → s.spaces.space id = some sp →
    va < kseg0 → (s.mach c sp.as).load va = .ok (m, some b) →
    UserStep s (.load (s.curthread c) va b) (s.accessed c m)
  /-- a store -/
  | store {s c id sp va b m} : s.Runs c → s.phase (s.curthread c) = .active id → s.spaces.space id = some sp →
    va < kseg0 → (s.mach c sp.as).store va b = .ok (m, true) →
    UserStep s (.store (s.curthread c) va b) (s.accessed c m)
  /-- `vm_fault` reports an error -/
  | fault {s c id sp faulttype va m} : s.Runs c → s.phase (s.curthread c) = .active id → s.spaces.space id = some sp →
    va < kseg0 → (s.mach c sp.as).translate faulttype va = .ok (m, none) → UserStep s .tau (s.accessed c m)
  /-- `cur->t_addrspace = NULL;` -/
  | clear {s c id} : s.Runs c → s.phase (s.curthread c) = .active id →
    UserStep s (.stop (s.curthread c)) (s.enter c (.cleared id))
  /-- `as_activate(NULL);` -/
  | flush {s c id} : s.Runs c → s.phase (s.curthread c) = .cleared id →
    UserStep s .tau { s.enter c (.flushed id) with tlb := Function.update s.tlb c asActivate }
  /-- `as_destroy(as);` -/
  | destroy {s c id sp vm} : s.Runs c → s.phase (s.curthread c) = .flushed id → s.spaces.space id = some sp →
    asDestroy s.spaces.phys.vm sp.as = .ok vm →
    UserStep s .tau { s.enter c .exiting with spaces := s.spaces.set ⟨vm, s.spaces.phys.mem⟩ id none }
  /-- `thread_exit` in a thread without an address space -/
  | leave {s c} : s.Runs c → s.phase (s.curthread c) = .kernel → UserStep s .tau (s.enter c .exiting)
  /-- the kernel heap gets pages -/
  | heapAlloc {s n vm a} : allocPpages s.spaces.phys.vm n = .ok (vm, a) →
    UserStep s .tau { s with spaces :=
      { s.spaces with
        phys := ⟨vm, s.spaces.phys.mem⟩
        heap := if a = 0 then s.spaces.heap else insert a s.spaces.heap } }
  /-- and gives them back -/
  | heapFree {s a vm} : a ∈ s.spaces.heap → freePpages s.spaces.phys.vm a = .ok vm →
    UserStep s .tau { s with spaces :=
      { s.spaces with
        phys := ⟨vm, s.spaces.phys.mem⟩
        heap := s.spaces.heap.erase a } }
  /-- the kernel writes to a page of its heap -/
  | heapWrite {s b p x} : b.start ∈ s.spaces.heap → s.spaces.phys.vm.Used b → b.Has p →
    UserStep s .tau { s with spaces :=
      { s.spaces with phys := ⟨s.spaces.phys.vm, Function.update s.spaces.phys.mem p x⟩ } }

/-- The TLB after `tlb_reset`: no entry is valid, and the pages are distinct and start at `0x81000000`. -/
structure Tlb.Reset (tlb : Tlb) : Prop where
  invalid : ∀ i, (tlb i).elo = 0
  pages : ∀ i, 0x81000000 ≤ (tlb i).ehi &&& tlbhiVpage
  distinct : ∀ i j, (tlb i).ehi &&& tlbhiVpage = (tlb j).ehi &&& tlbhiVpage → i = j

/-- `as_activate` after the entries below `k`. -/
def Tlb.activated (tlb : Tlb) (k : Nat) : Tlb := fun i => if i.val < k then asActivate i else tlb i

/-- The system at boot. -/
structure UserSys.Boot {n : Nat} (s : UserSys n) : Prop where
  threads : s.toThreadSys.Boot
  spaces : ∃ b vm mem, vmBoot b = .ok vm ∧ s.spaces = AsSys.init vm mem
  tlb : ∀ c, (s.tlb c).Reset
  phase : ∀ t, s.phase t = .kernel

/-- The threads and their user memory. -/
def userSys (n : Nat) : Lts (UserSys n) UserEvent := ⟨UserSys.Boot, UserStep⟩

/-- The memory of each thread that has one. -/
abbrev Memories := Tid → Option (Nat → UInt8)

/-- One step of threads with memories of their own. -/
inductive PrivateStep : Memories → UserEvent → Memories → Prop where
  | tau {m} : PrivateStep m .tau m
  | start {m t} : PrivateStep m (.start t) (Function.update m t (some fun _ => 0))
  | load {m t p va} : m t = some p → PrivateStep m (.load t va (p va)) m
  | store {m t p va b} : m t = some p →
    PrivateStep m (.store t va b) (Function.update m t (some (Function.update p va b)))
  | stop {m t} : PrivateStep m (.stop t) (Function.update m t none)

/-- Threads with memories of their own; there are none at first. -/
def privateMemory : Lts Memories UserEvent := ⟨fun m => ∀ t, m t = none, PrivateStep⟩

/-- What the thread `t` has stored last at `va`, in a memory that was all zeros when it got it: how one event
changes it. -/
def lastStored (t : Tid) (va : Nat) (last : Option UInt8) : UserEvent → Option UInt8
  | .start u => if u = t then some 0 else last
  | .store u va' b => if u = t ∧ va' = va then some b else last
  | .stop u => if u = t then none else last
  | .load .. | .tau => last

end PDS.Kern
