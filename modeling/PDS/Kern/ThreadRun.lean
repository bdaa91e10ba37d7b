import PDS.Kern.Thread

/-!
# Every thread is in one place

The invariant of the thread system (`ThreadSys.Inv`): every live thread is in exactly one place, a thread on a
run queue or a zombie list belongs to that CPU, and so does the thread whose stack a CPU is using. The last is
what makes migration safe: only `thread_consider_migration` changes the CPU of a thread, for threads from its
own run queue other than the current one, so never for one whose stack is in use.
-/

namespace PDS.Kern
open Places

/-- Where a thread can be. -/
inductive Place (n : Nat) where
  /-- dispatched on a CPU -/
  | cpu (c : Fin n)
  /-- on the run queue of a CPU -/
  | queue (c : Fin n)
  /-- on a wait channel -/
  | wchan (w : Nat)
  /-- in the hands of a forker or waker -/
  | hand (a : Nat)
  /-- in the hands of `thread_consider_migration` on a CPU -/
  | victims (c : Fin n)
  /-- on the zombie list of a CPU -/
  | zombies (c : Fin n)
deriving DecidableEq, Repr

namespace ThreadSys

variable {n : Nat}

/-- The threads in a place. -/
def content (s : ThreadSys n) : Place n → List Tid
  | .cpu c => if (s.mode c).dispatched then [s.curthread c] else []
  | .queue c => s.queues.runqueue c
  | .wchan w => s.wchan w
  | .hand a => s.hand a
  | .victims c => ((s.mig c).map Migration.victims).getD []
  | .zombies c => s.zombies c

/-- The invariant of the thread system. -/
structure Inv (s : ThreadSys n) : Prop where
  placed : Placed s.content (fun t => s.live t = true)
  queue : ∀ {c t}, t ∈ s.queues.runqueue c → s.queues.tcpu t = c
  current : ∀ c, s.queues.tcpu (s.curthread c) = c
  stack : ∀ c, s.queues.tcpu (s.stack c) = c
  inUse : ∀ c, s.live (s.stack c) = true
  zombies : ∀ {c z}, z ∈ s.zombies c → s.queues.tcpu z = c ∧ s.state z = .zombie
  victims : ∀ {c m t}, s.mig c = some m → t ∈ m.victims → s.queues.tcpu t = c
  fits : ∀ {c m}, s.mig c = some m → m.Fits c (s.curthread c) s.queues
  migrating : ∀ {c m}, s.mig c = some m → s.Interruptible c

variable {s s' : ThreadSys n} {c : Fin n}

/-- Outside a switch a CPU runs on the stack of its current thread. -/
lemma stack_of_not_leaving (h : ∀ cur, s.mode c ≠ .leaving cur) : s.stack c = s.curthread c := by
  rw [stack]
  split
  next cur e => exact absurd e (h cur)
  next => rfl

/-- A thread that is dispatched, queued, asleep or in somebody's hands is not a zombie. -/
lemma Inv.not_zombie (inv : s.Inv) {p : Place n} {t : Tid} (mem : t ∈ s.content p) (ne : ∀ d, p ≠ .zombies d)
    (d : Fin n) : t ∉ s.zombies d :=
  fun h => ne d (inv.placed.unique mem (q := .zombies d) h)

/-- A dispatched thread is on its CPU. -/
lemma mem_cpu (h : (s.mode c).dispatched = true) : s.curthread c ∈ s.content (.cpu c) := by
  rw [content, if_pos h]
  exact List.mem_singleton_self _

/-- A victim is on the list of the CPU that migrates it. -/
lemma mem_victims {m : Migration} {t : Tid} (h : s.mig c = some m) (mem : t ∈ m.victims) :
    t ∈ s.content (.victims c) := by
  rw [content, h]
  exact mem

/-- The CPU that runs the migration does so on the stack of its current thread. -/
lemma Inv.mig_mode (inv : s.Inv) {m : Migration} (h : s.mig c = some m) (cur : Tid) :
    s.mode c ≠ .switching ∧ s.mode c ≠ .leaving cur := by
  cases inv.migrating h with
  | inl e => rw [e]; exact ⟨nofun, nofun⟩
  | inr e => rw [e]; exact ⟨nofun, nofun⟩

/-- A new thread is in the hands of the forker. -/
lemma Inv.fork (inv : s.Inv) {a : Nat} {t : Tid} (fresh : s.live t = false) (free : s.hand a = []) (d : Fin n) :
    Inv { s with
      queues := { s.queues with tcpu := Function.update s.queues.tcpu t d }
      hand := Function.update s.hand a [t]
      state := Function.update s.state t .ready
      live := Function.update s.live t true } := by
  have dead : ¬ s.live t = true := by
    rw [fresh]
    nofun
  -- the new thread is none of those that the invariant speaks of
  have ne : ∀ {p u}, u ∈ s.content p → u ≠ t := by
    rintro p u mem rfl
    exact dead (inv.placed.of_mem mem)
  have keep : ∀ {u}, u ≠ t → Function.update s.queues.tcpu t d u = s.queues.tcpu u :=
    fun h => Function.update_of_ne h ..
  have use : ∀ c, s.stack c ≠ t := fun c e => dead (e ▸ inv.inUse c)
  have cur : ∀ c, s.curthread c ≠ t := by
    intro c
    cases disp : (s.mode c).dispatched with
    | true => exact ne (mem_cpu disp)
    | false =>
      rw [← stack_of_not_leaving (s := s) (c := c)]
      · exact use c
      · intro cur e
        rw [e] at disp
        cases disp
  refine ⟨?_, ?_, ?_, ?_, ?_, ?_, ?_, ?_, inv.migrating⟩
  · have pl := inv.placed.create (d := content { s with
        queues := { s.queues with tcpu := Function.update s.queues.tcpu t d }
        hand := Function.update s.hand a [t]
        state := Function.update s.state t .ready
        live := Function.update s.live t true }) (q := .hand a) dead ?_ ?_
    · refine ⟨fun u => ?_, pl.unique, pl.nodup⟩
      rw [← pl.live_iff u]
      by_cases same : u = t
      · subst same
        simp
      · simp [same]
    · simp [content, free]
    · intro r h
      cases r with
      | hand b =>
        simp only [content]
        exact Function.update_of_ne (fun e => h (congrArg _ e)) ..
      | cpu | queue | wchan | victims | zombies => rfl
  · intro c u mem
    exact (keep (ne (p := .queue c) mem)).trans (inv.queue mem)
  · intro c
    exact (keep (cur c)).trans (inv.current c)
  · intro c
    exact (keep (use c)).trans (inv.stack c)
  · intro c
    exact (Function.update_of_ne (use c) ..).trans (inv.inUse c)
  · intro c z mem
    have zt := ne (p := .zombies c) mem
    exact ⟨(keep zt).trans (inv.zombies mem).1, (Function.update_of_ne zt ..).trans (inv.zombies mem).2⟩
  · intro c m u h mem
    exact (keep (ne (mem_victims (s := s) h mem))).trans (inv.victims h mem)
  · intro c m h
    exact MigState.fits_mono (inv.fits h) le_rfl

/-- Threads go from a wait channel into the hands of a waker. -/
lemma Inv.wake (inv : s.Inv) {a w : Nat} {us ts : List Tid} (free : s.hand a = []) (split : s.wchan w = us ++ ts) :
    Inv { s with hand := Function.update s.hand a us, wchan := Function.update s.wchan w ts } := by
  refine ⟨?_, inv.queue, inv.current, inv.stack, inv.inUse, inv.zombies, inv.victims, inv.fits, inv.migrating⟩
  refine inv.placed.move (p := .wchan w) (q := .hand a) (l := us) nofun ?_ ?_ ?_
  · simp [content, split]
  · simp [content, free]
  · intro r hp hq
    cases r with
    | hand b =>
      simp only [content]
      exact Function.update_of_ne (fun e => hq (congrArg _ e)) ..
    | wchan v =>
      simp only [content]
      exact Function.update_of_ne (fun e => hp (congrArg _ e)) ..
    | cpu | queue | victims | zombies => rfl

/-- A thread goes from the hands of a forker or waker to the run queue of its CPU. -/
lemma Inv.makeRunnable (inv : s.Inv) {a : Nat} {t : Tid} {ts : List Tid} (cons : s.hand a = t :: ts) :
    Inv { s with
      queues := s.queues.set (s.queues.tcpu t) (s.queues.runqueue (s.queues.tcpu t) ++ [t])
      hand := Function.update s.hand a ts } := by
  refine ⟨?_, ?_, inv.current, inv.stack, inv.inUse, inv.zombies, inv.victims, ?_, inv.migrating⟩
  · refine inv.placed.move (p := .hand a) (q := .queue (s.queues.tcpu t)) (l := [t]) nofun ?_ ?_ ?_
    · simp [content, cons]
    · simp [content, Queues.set]
    · intro r hp hq
      cases r with
      | hand b =>
        simp only [content]
        exact Function.update_of_ne (fun e => hp (congrArg _ e)) ..
      | queue d =>
        simp only [content, Queues.set]
        exact Function.update_of_ne (fun e => hq (congrArg _ e)) ..
      | cpu | wchan | victims | zombies => rfl
  · intro d u mem
    rw [Queues.mem_set] at mem
    split_ifs at mem with own
    · cases List.mem_append.1 mem with
      | inl mem =>
        rw [own]
        exact inv.queue mem
      | inr mem =>
        rw [List.mem_singleton.1 mem]
        exact own.symm
    · exact inv.queue mem
  · intro d m h
    refine MigState.fits_mono (inv.fits h) ?_
    simp only [Queues.set]
    by_cases own : d = s.queues.tcpu t
    · rw [own, Function.update_self, List.length_append]
      exact Nat.le_add_right _ _
    · rw [Function.update_of_ne own]

/-- A running CPU does not use the stack of another thread. -/
lemma Inv.stack_running (h : s.mode c = .running) : s.stack c = s.curthread c :=
  stack_of_not_leaving (by simp [h])

/-- The first half of a switch changes no stack. -/
lemma switching_stack (h : s.mode c = .running) (newstate : ThreadState) (d : Fin n) :
    (s.switching c newstate).stack d = s.stack d := by
  by_cases same : d = c
  · subst same
    rw [Inv.stack_running h]
    simp [stack, switching]
  · simp [stack, switching, same]

/-- The parts of the invariant that do not depend on where `thread_switch` puts the current thread. -/
lemma Inv.switching_zombies (inv : s.Inv) (h : s.mode c = .running) (newstate : ThreadState) {d : Fin n} {z : Tid}
    (mem : z ∈ s.zombies d) :
    s.queues.tcpu z = d ∧ (s.switching c newstate).state z = .zombie := by
  refine ⟨(inv.zombies mem).1, ?_⟩
  have ne : z ≠ s.curthread c := by
    rintro rfl
    exact inv.not_zombie (mem_cpu (by rw [h]; rfl)) nofun d mem
  exact (Function.update_of_ne ne ..).trans (inv.zombies mem).2

/-- A CPU that switches disturbs no migration under way elsewhere. -/
lemma Inv.switching_migrating (inv : s.Inv) (none : s.mig c = none) (newstate : ThreadState) {d : Fin n}
    {m : Migration} (h : s.mig d = some m) : (s.switching c newstate).Interruptible d := by
  have ne : d ≠ c := by
    rintro rfl
    rw [none] at h
    cases h
  rw [Interruptible, switching]
  simp only [Function.update_of_ne ne]
  exact inv.migrating h

/-- The threads on the other CPUs stay dispatched. -/
lemma switching_cpu_ne (newstate : ThreadState) {d : Fin n} (ne : d ≠ c) :
    (s.switching c newstate).content (.cpu d) = s.content (.cpu d) := by
  simp [content, switching, ne]

/-- `thread_yield` keeps the invariant. -/
lemma Inv.yield (inv : s.Inv) (h : s.mode c = .running) (none : s.mig c = none) :
    Inv { s.switching c .ready with
      queues := s.queues.set c (s.queues.runqueue c ++ [s.curthread c]) } := by
  refine ⟨?_, ?_, inv.current, ?_, ?_, inv.switching_zombies h _, inv.victims, ?_,
    inv.switching_migrating none .ready⟩
  · refine inv.placed.move (p := .cpu c) (q := .queue c) (l := [s.curthread c]) nofun ?_ ?_ ?_
    · simp [content, switching, h, CpuMode.dispatched]
    · simp [content, Queues.set]
    · intro r hp hq
      cases r with
      | cpu d => exact switching_cpu_ne .ready (fun e => hp (congrArg _ e))
      | queue d =>
        simp only [content, Queues.set]
        exact Function.update_of_ne (fun e => hq (congrArg _ e)) ..
      | wchan | hand | victims | zombies => rfl
  · intro d u mem
    rw [Queues.mem_set] at mem
    split_ifs at mem with own
    · subst own
      cases List.mem_append.1 mem with
      | inl mem => exact inv.queue mem
      | inr mem =>
        rw [List.mem_singleton.1 mem]
        exact inv.current d
    · exact inv.queue mem
  · intro d
    exact (congrArg _ (switching_stack h .ready d)).trans (inv.stack d)
  · intro d
    exact (congrArg _ (switching_stack h .ready d)).trans (inv.inUse d)
  · intro d m hm
    refine MigState.fits_mono (inv.fits hm) ?_
    simp only [Queues.set]
    by_cases own : d = c
    · rw [own, Function.update_self, List.length_append]
      exact Nat.le_add_right _ _
    · rw [Function.update_of_ne own]

/-- `wchan_sleep` keeps the invariant. -/
lemma Inv.sleep (inv : s.Inv) (h : s.mode c = .running) (none : s.mig c = none) (w : Nat) :
    Inv { s.switching c .sleep with
      wchan := Function.update s.wchan w (s.wchan w ++ [s.curthread c]) } := by
  refine ⟨?_, inv.queue, inv.current, ?_, ?_, inv.switching_zombies h _, inv.victims, inv.fits,
    inv.switching_migrating none .sleep⟩
  · refine inv.placed.move (p := .cpu c) (q := .wchan w) (l := [s.curthread c]) nofun ?_ ?_ ?_
    · simp [content, switching, h, CpuMode.dispatched]
    · simp [content]
    · intro r hp hq
      cases r with
      | cpu d => exact switching_cpu_ne .sleep (fun e => hp (congrArg _ e))
      | wchan v =>
        simp only [content]
        exact Function.update_of_ne (fun e => hq (congrArg _ e)) ..
      | queue | hand | victims | zombies => rfl
  · intro d
    exact (congrArg _ (switching_stack h .sleep d)).trans (inv.stack d)
  · intro d
    exact (congrArg _ (switching_stack h .sleep d)).trans (inv.inUse d)

/-- `thread_exit` keeps the invariant. -/
lemma Inv.exit (inv : s.Inv) (h : s.mode c = .running) (none : s.mig c = none) :
    Inv { s.switching c .zombie with
      zombies := Function.update s.zombies c (s.zombies c ++ [s.curthread c]) } := by
  refine ⟨?_, inv.queue, inv.current, ?_, ?_, ?_, inv.victims, inv.fits, inv.switching_migrating none .zombie⟩
  · refine inv.placed.move (p := .cpu c) (q := .zombies c) (l := [s.curthread c]) nofun ?_ ?_ ?_
    · simp [content, switching, h, CpuMode.dispatched]
    · simp [content]
    · intro r hp hq
      cases r with
      | cpu d => exact switching_cpu_ne .zombie (fun e => hp (congrArg _ e))
      | zombies d =>
        simp only [content]
        exact Function.update_of_ne (fun e => hq (congrArg _ e)) ..
      | queue | hand | victims | wchan => rfl
  · intro d
    exact (congrArg _ (switching_stack h .zombie d)).trans (inv.stack d)
  · intro d
    exact (congrArg _ (switching_stack h .zombie d)).trans (inv.inUse d)
  · intro d z mem
    by_cases own : d = c
    · subst own
      simp only [Function.update_self] at mem
      cases List.mem_append.1 mem with
      | inl mem => exact inv.switching_zombies h _ mem
      | inr mem =>
        rw [List.mem_singleton.1 mem]
        exact ⟨inv.current d, Function.update_self ..⟩
    · simp only [Function.update_of_ne own] at mem
      exact inv.switching_zombies h _ mem

/-- The next thread is dispatched, on the stack of the previous one. -/
lemma Inv.next (inv : s.Inv) {t : Tid} {ts : List Tid} (h : s.mode c = .switching)
    (cons : s.queues.runqueue c = t :: ts) :
    Inv { s with
      queues := s.queues.set c ts
      curthread := Function.update s.curthread c t
      mode := Function.update s.mode c (.leaving (s.curthread c)) } := by
  have tcpu : s.queues.tcpu t = c := inv.queue (cons ▸ List.mem_cons_self)
  have st : ∀ d, ThreadSys.stack { s with
      queues := s.queues.set c ts
      curthread := Function.update s.curthread c t
      mode := Function.update s.mode c (.leaving (s.curthread c)) } d = s.stack d := by
    intro d
    by_cases same : d = c
    · subst same
      rw [stack_of_not_leaving (s := s) (by simp [h])]
      simp [ThreadSys.stack]
    · simp [ThreadSys.stack, same]
  have idle : ∀ {d m}, s.mig d = some m → d ≠ c := by
    rintro d m hm rfl
    exact (inv.mig_mode hm 0).1 h
  refine ⟨?_, ?_, ?_, ?_, ?_, inv.zombies, inv.victims, ?_, ?_⟩
  · refine inv.placed.move (p := .queue c) (q := .cpu c) (l := [t]) nofun ?_ ?_ ?_
    · simp [content, Queues.set, cons]
    · simp [content, h, CpuMode.dispatched]
    · intro r hp hq
      cases r with
      | cpu d =>
        have ne : d ≠ c := fun e => hq (congrArg _ e)
        simp [content, ne]
      | queue d =>
        simp only [content, Queues.set]
        exact Function.update_of_ne (fun e => hp (congrArg _ e)) ..
      | wchan | hand | victims | zombies => rfl
  · intro d u mem
    rw [Queues.mem_set] at mem
    split_ifs at mem with own
    · rw [own]
      exact inv.queue (cons ▸ List.mem_cons_of_mem _ mem)
    · exact inv.queue mem
  · intro d
    by_cases same : d = c
    · subst same
      simp only [Function.update_self]
      exact tcpu
    · simp only [Function.update_of_ne same]
      exact inv.current d
  · intro d
    rw [st d]
    exact inv.stack d
  · intro d
    rw [st d]
    exact inv.inUse d
  · intro d m hm
    have ne := idle hm
    dsimp only
    rw [Function.update_of_ne ne]
    refine MigState.fits_mono (inv.fits hm) (le_of_eq ?_)
    exact (congrArg List.length (Function.update_of_ne ne ..)).symm
  · intro d m hm
    have ne := idle hm
    rw [Interruptible]
    dsimp only
    rw [Function.update_of_ne ne]
    exact inv.migrating hm

/-- The mode of a CPU changes, but neither its stack nor whether its current thread is dispatched. -/
lemma Inv.setMode (inv : s.Inv) {mode : CpuMode} (disp : mode.dispatched = (s.mode c).dispatched)
    (stay : ∀ cur, s.mode c ≠ .leaving cur) (stay' : ∀ cur, mode ≠ .leaving cur)
    (int : ∀ {m}, s.mig c = some m → mode = .running ∨ mode = .idle) :
    Inv { s with mode := Function.update s.mode c mode } := by
  have st : ∀ d, ThreadSys.stack { s with mode := Function.update s.mode c mode } d = s.stack d := by
    intro d
    by_cases same : d = c
    · subst same
      rw [stack_of_not_leaving stay, stack_of_not_leaving]
      simpa using stay'
    · simp [ThreadSys.stack, same]
  have cont : content { s with mode := Function.update s.mode c mode } = s.content := by
    funext r
    cases r with
    | cpu d =>
      by_cases same : d = c
      · subst same
        simp [content, disp]
      · simp [content, same]
    | queue | wchan | hand | victims | zombies => rfl
  refine ⟨?_, inv.queue, inv.current, ?_, ?_, inv.zombies, inv.victims, inv.fits, ?_⟩
  · rw [cont]
    exact inv.placed
  · intro d
    rw [st d]
    exact inv.stack d
  · intro d
    rw [st d]
    exact inv.inUse d
  · intro d m hm
    rw [Interruptible]
    dsimp only
    by_cases same : d = c
    · subst same
      rw [Function.update_self]
      exact int hm
    · rw [Function.update_of_ne same]
      exact inv.migrating hm

/-- The CPU leaves the stack of the previous thread. -/
lemma Inv.switchframe (inv : s.Inv) {cur : Tid} (h : s.mode c = .leaving cur) :
    Inv { s with
      mode := Function.update s.mode c .exorcising
      state := Function.update s.state (s.curthread c) .run } := by
  have disp := mem_cpu (s := s) (c := c) (by rw [h]; rfl)
  have cont : content { s with
      mode := Function.update s.mode c .exorcising
      state := Function.update s.state (s.curthread c) .run } = s.content := by
    funext r
    cases r with
    | cpu d =>
      by_cases same : d = c
      · subst same
        simp [content, h, CpuMode.dispatched]
      · simp [content, same]
    | queue | wchan | hand | victims | zombies => rfl
  have st : ∀ d, d ≠ c → ThreadSys.stack { s with
      mode := Function.update s.mode c .exorcising
      state := Function.update s.state (s.curthread c) .run } d = s.stack d := by
    intro d ne
    simp [ThreadSys.stack, ne]
  have own : ThreadSys.stack { s with
      mode := Function.update s.mode c .exorcising
      state := Function.update s.state (s.curthread c) .run } c = s.curthread c := by
    simp [ThreadSys.stack]
  refine ⟨?_, inv.queue, inv.current, ?_, ?_, ?_, inv.victims, inv.fits, ?_⟩
  · rw [cont]
    exact inv.placed
  · intro d
    by_cases same : d = c
    · subst same
      rw [own]
      exact inv.current d
    · rw [st d same]
      exact inv.stack d
  · intro d
    by_cases same : d = c
    · subst same
      rw [own]
      exact inv.placed.of_mem disp
    · rw [st d same]
      exact inv.inUse d
  · intro d z mem
    have ne : z ≠ s.curthread c := by
      rintro rfl
      exact inv.not_zombie disp nofun d mem
    exact ⟨(inv.zombies mem).1, (Function.update_of_ne ne ..).trans (inv.zombies mem).2⟩
  · intro d m hm
    have ne : d ≠ c := by
      rintro rfl
      exact (inv.mig_mode hm cur).2 h
    rw [Interruptible]
    dsimp only
    rw [Function.update_of_ne ne]
    exact inv.migrating hm

/-- No CPU uses the stack of a zombie that `exorcise` destroys. -/
lemma Inv.zombie_unused (inv : s.Inv) {z : Tid} (h : s.mode c = .exorcising) (mem : z ∈ s.zombies c) (d : Fin n) :
    s.stack d ≠ z := by
  rintro rfl
  have same : d = c := (inv.stack d).symm.trans (inv.zombies mem).1
  subst same
  rw [stack_of_not_leaving (by simp [h])] at mem
  exact inv.not_zombie (mem_cpu (by rw [h]; rfl)) nofun d mem

/-- `exorcise` destroys a zombie. -/
lemma Inv.destroy (inv : s.Inv) {z : Tid} {zs : List Tid} (h : s.mode c = .exorcising)
    (cons : s.zombies c = z :: zs) :
    Inv { s with
      zombies := Function.update s.zombies c zs
      live := Function.update s.live z false } := by
  have mem : z ∈ s.zombies c := cons ▸ List.mem_cons_self
  have sub : ∀ {d y}, y ∈ Function.update s.zombies c zs d → y ∈ s.zombies d := by
    intro d y my
    by_cases same : d = c
    · subst same
      rw [Function.update_self] at my
      exact cons ▸ List.mem_cons_of_mem _ my
    · rwa [Function.update_of_ne same] at my
  refine ⟨?_, inv.queue, inv.current, inv.stack, ?_, fun my => inv.zombies (sub my), inv.victims, inv.fits,
    inv.migrating⟩
  · have pl := inv.placed.destroy (d := content { s with
        zombies := Function.update s.zombies c zs
        live := Function.update s.live z false }) (p := .zombies c) (t := z) ?_ ?_
    · refine ⟨fun u => ?_, pl.unique, pl.nodup⟩
      rw [← pl.live_iff u]
      by_cases same : u = z
      · subst same
        simp
      · simp [same]
    · simp [content, cons]
    · intro r hp
      cases r with
      | zombies d =>
        simp only [content]
        exact Function.update_of_ne (fun e => hp (congrArg _ e)) ..
      | cpu | queue | hand | victims | wchan => rfl
  · intro d
    exact (Function.update_of_ne (inv.zombie_unused h mem d) ..).trans (inv.inUse d)

/-- A migration begins or ends, with nothing in its hands. -/
lemma Inv.setMig (inv : s.Inv) {x : Option Migration} (int : x.isSome → s.Interruptible c)
    (empty : (x.map Migration.victims).getD [] = []) (empty' : ((s.mig c).map Migration.victims).getD [] = [])
    (fits : ∀ {m}, x = some m → m.Fits c (s.curthread c) s.queues) :
    Inv { s with mig := Function.update s.mig c x } := by
  have cont : content { s with mig := Function.update s.mig c x } = s.content := by
    funext r
    cases r with
    | victims d =>
      by_cases same : d = c
      · subst same
        simp only [content, Function.update_self]
        rw [empty, empty']
      · simp [content, same]
    | cpu | queue | wchan | hand | zombies => rfl
  refine ⟨?_, inv.queue, inv.current, inv.stack, inv.inUse, inv.zombies, ?_, ?_, ?_⟩
  · rw [cont]
    exact inv.placed
  · intro d m t hm mem
    by_cases same : d = c
    · subst same
      simp only [Function.update_self] at hm
      rw [hm] at empty
      rw [show m.victims = [] from empty] at mem
      cases mem
    · simp only [Function.update_of_ne same] at hm
      exact inv.victims hm mem
  · intro d m hm
    by_cases same : d = c
    · subst same
      simp only [Function.update_self] at hm
      exact fits hm
    · simp only [Function.update_of_ne same] at hm
      exact inv.fits hm
  · intro d m hm
    by_cases same : d = c
    · subst same
      simp only [Function.update_self] at hm
      exact int (by rw [hm]; rfl)
    · simp only [Function.update_of_ne same] at hm
      exact inv.migrating hm

/-- The moves of a migration move threads between the places. -/
lemma Inv.moves_placed (inv : s.Inv) {m m' : Migration} {q : Queues n} (hm : s.mig c = some m)
    (mv : Moves c (s.curthread c) s.queues m.victims q m'.victims) :
    Placed (content { s with queues := q, mig := Function.update s.mig c (some m') })
      (fun t => s.live t = true) := by
  have vic : content { s with queues := q, mig := Function.update s.mig c (some m') } (.victims c) =
      m'.victims := by simp [content]
  have vic' : s.content (.victims c) = m.victims := by simp [content, hm]
  have vics : ∀ d, d ≠ c → content { s with queues := q, mig := Function.update s.mig c (some m') } (.victims d) =
      s.content (.victims d) := by
    intro d ne
    simp [content, ne]
  generalize m.victims = vs at mv vic'
  generalize m'.victims = vs' at mv vic
  cases mv with
  | stay =>
    have cont : content { s with mig := Function.update s.mig c (some m') } = s.content := by
      funext r
      cases r with
      | victims d =>
        by_cases same : d = c
        · rw [same, vic']
          exact vic
        · exact vics d same
      | cpu | queue | wchan | hand | zombies => rfl
    rw [show content { s with queues := s.queues, mig := Function.update s.mig c (some m') } = _ from cont]
    exact inv.placed
  | take e =>
    refine inv.placed.move (p := .queue c) (q := .victims c) (l := vs') (fun e => by cases e) ?_ ?_ ?_
    · simp only [content, Queues.set, e, Function.update_self]
      exact List.perm_append_comm
    · rw [vic, vic', List.append_nil]
    · intro r hp hq
      cases r with
      | queue d =>
        simp only [content, Queues.set]
        exact Function.update_of_ne (fun e => hp (congrArg _ e)) ..
      | victims d => exact vics d (fun e => hq (congrArg _ e))
      | cpu | wchan | hand | zombies => rfl
  | @send d _ ts _ ne perm _ =>
    refine inv.placed.move (p := .victims c) (q := .queue d) (l := ts) (fun e => by cases e) ?_ ?_ ?_
    · rw [vic, vic']
      exact perm.symm
    · simp only [content, Queues.move, Function.update_self]
      exact List.perm_append_comm
    · intro r hp hq
      cases r with
      | queue d' =>
        simp only [content, Queues.move]
        exact Function.update_of_ne (fun e => hq (congrArg _ e)) ..
      | victims d' => exact vics d' (fun e => hp (congrArg _ e))
      | cpu | wchan | hand | zombies => rfl
  | back =>
    refine inv.placed.move (p := .victims c) (q := .queue c) (l := vs) (fun e => by cases e) ?_ ?_ ?_
    · rw [vic, vic', List.append_nil]
    · simp only [content, Queues.set, Function.update_self]
      exact List.perm_append_comm
    · intro r hp hq
      cases r with
      | queue d' =>
        simp only [content, Queues.set]
        exact Function.update_of_ne (fun e => hq (congrArg _ e)) ..
      | victims d' => exact vics d' (fun e => hp (congrArg _ e))
      | cpu | wchan | hand | zombies => rfl

/-- A critical section of `thread_consider_migration` keeps the invariant. The thread whose stack a CPU uses stays
on that CPU: it is not among the `victims` of another CPU, which belong there, and on the CPU of the migration
it is the current thread. -/
lemma Inv.migration (inv : s.Inv) {m m' : Migration} {q : Queues n} (hm : s.mig c = some m)
    (e : m.step c (s.curthread c) s.queues = .ok (q, m')) :
    Inv { s with queues := q, mig := Function.update s.mig c (some m') } := by
  obtain ⟨q₁, m₁, e₁, mv, fits⟩ := Migration.step_ok (inv.fits hm) (inv.placed.nodup (.queue c))
  rw [e₁] at e
  cases e
  have nd : m.victims.Nodup := by
    have := inv.placed.nodup (.victims c)
    rwa [content, hm] at this
  have disj : ∀ {d t}, t ∈ s.queues.runqueue d → t ∉ m.victims := by
    intro d t mem mem'
    have := inv.placed.unique (p := .queue d) mem (mem_victims hm mem')
    cases this
  obtain ⟨queue, home⟩ := mv.tcpu nd disj inv.queue (inv.victims hm)
  -- a thread of another CPU is not one of the victims
  have keep : ∀ {d t}, s.queues.tcpu t = d → (d = c → t = s.curthread c) → q.tcpu t = d := by
    intro d t tcpu own
    refine (mv.tcpu_keep ?_).trans tcpu
    by_cases mem : t ∈ m.victims
    · exact .inr (own (tcpu.symm.trans (inv.victims hm mem)))
    · exact .inl mem
  have stackc : s.stack c = s.curthread c := stack_of_not_leaving (fun cur => (inv.mig_mode hm cur).2)
  refine ⟨inv.moves_placed hm mv, queue, ?_, ?_, inv.inUse, ?_, ?_, ?_, ?_⟩
  · intro d
    exact keep (inv.current d) (fun own => by rw [own])
  · intro d
    exact keep (inv.stack d) (fun own => by rw [← stackc, ← own]; rfl)
  · intro d z mem
    refine ⟨(mv.tcpu_keep (.inl (fun mem' => ?_))).trans (inv.zombies mem).1, (inv.zombies mem).2⟩
    have := inv.placed.unique (p := .zombies d) mem (mem_victims hm mem')
    cases this
  · intro d m₂ t h₂ mem
    by_cases own : d = c
    · subst own
      simp only [Function.update_self] at h₂
      cases h₂
      exact home mem
    · simp only [Function.update_of_ne own] at h₂
      refine (mv.tcpu_keep (.inl (fun mem' => ?_))).trans (inv.victims h₂ mem)
      have := inv.placed.unique (mem_victims h₂ mem) (mem_victims hm mem')
      cases this
      exact own rfl
  · intro d m₂ h₂
    by_cases own : d = c
    · subst own
      simp only [Function.update_self] at h₂
      cases h₂
      exact fits
    · simp only [Function.update_of_ne own] at h₂
      exact MigState.fits_mono (inv.fits h₂) (mv.length_le own)
  · intro d m₂ h₂
    by_cases own : d = c
    · subst own
      exact inv.migrating hm
    · simp only [Function.update_of_ne own] at h₂
      exact inv.migrating h₂

/-- The invariant holds at boot. -/
lemma Boot.inv (boot : s.Boot) : s.Inv := by
  have stack : ∀ c, s.stack c = s.curthread c := fun c => stack_of_not_leaving (by simp [boot.mode])
  have inj : ∀ {c d}, s.curthread c = s.curthread d → c = d := by
    intro c d e
    rw [← boot.tcpu c, ← boot.tcpu d, e]
  have cpu : ∀ c, s.content (.cpu c) = [s.curthread c] := by
    intro c
    simp [content, boot.mode, CpuMode.dispatched]
  have empty : ∀ {p t}, t ∈ s.content p → ∃ c, p = .cpu c := by
    intro p t mem
    cases p with
    | cpu c => exact ⟨c, rfl⟩
    | queue c => simp [content, boot.queues] at mem
    | wchan w => simp [content, boot.wchan] at mem
    | hand a => simp [content, boot.hand] at mem
    | victims c => simp [content, boot.mig] at mem
    | zombies c => simp [content, boot.zombies] at mem
  refine ⟨⟨fun t => ?_, fun {p q t} hp hq => ?_, fun p => ?_⟩, ?_, boot.tcpu, ?_, ?_, ?_, ?_, ?_, ?_⟩
  · rw [boot.live]
    constructor
    · intro h
      obtain ⟨c, rfl⟩ := h
      exact ⟨.cpu c, by rw [cpu]; exact List.mem_singleton_self _⟩
    · intro h
      obtain ⟨p, mem⟩ := h
      obtain ⟨c, rfl⟩ := empty mem
      rw [cpu] at mem
      exact ⟨c, (List.mem_singleton.1 mem).symm⟩
  · obtain ⟨c, rfl⟩ := empty hp
    obtain ⟨d, rfl⟩ := empty hq
    rw [cpu, List.mem_singleton] at hp hq
    rw [inj (hp.symm.trans hq)]
  · cases p with
    | cpu c => rw [cpu]; exact List.nodup_singleton _
    | queue c => simp [content, boot.queues]
    | wchan w => simp [content, boot.wchan]
    | hand a => simp [content, boot.hand]
    | victims c => simp [content, boot.mig]
    | zombies c => simp [content, boot.zombies]
  · intro c t mem
    rw [boot.queues] at mem
    cases mem
  · intro c
    rw [stack]
    exact boot.tcpu c
  · intro c
    rw [stack]
    exact (boot.live _).2 ⟨c, rfl⟩
  · intro c z mem
    rw [boot.zombies] at mem
    cases mem
  · intro c m t hm
    rw [boot.mig] at hm
    cases hm
  · intro c m hm
    rw [boot.mig] at hm
    cases hm
  · intro c m hm
    rw [boot.mig] at hm
    cases hm

/-- Every step keeps the invariant. -/
lemma Inv.step (inv : s.Inv) (st : ThreadStep s s') : s'.Inv := by
  cases st with
  | fork _ _ fresh free => exact inv.fork fresh free _
  | wakeone free cons => exact inv.wake free cons
  | wakeall free => exact inv.wake free (List.append_nil _).symm
  | makeRunnable cons _ => exact inv.makeRunnable cons
  | yield h none _ => exact inv.yield h none
  | sleep h none => exact inv.sleep h none _
  | exit h none => exact inv.exit h none
  | next h cons => exact inv.next h cons
  | idle h _ =>
    exact inv.setMode (by rw [h]; rfl) (by simp [h]) nofun (fun _ => .inr rfl)
  | unidle h none =>
    exact inv.setMode (by rw [h]; rfl) (by simp [h]) nofun (fun hm => by rw [none] at hm; cases hm)
  | switchframe h => exact inv.switchframe h
  | destroy h cons => exact inv.destroy h cons
  | exorcised h _ =>
    exact inv.setMode (by rw [h]; rfl) (by simp [h]) nofun (fun _ => .inl rfl)
  | migrate int none =>
    refine inv.setMig (fun _ => int) rfl (by rw [none]; rfl) ?_
    rintro _ ⟨⟩
    exact ⟨rfl, fun h => absurd h (Nat.not_lt_zero _)⟩
  | migration hm _ e => exact inv.migration hm e
  | @migrated c m hm fin =>
    refine inv.setMig nofun rfl ?_ nofun
    have fits := inv.fits hm
    rw [Migration.Fits, fin] at fits
    rw [hm]
    exact fits

/-- What holds of the thread system at any time. Every thread that has been created and not destroyed is in exactly
one place, and once: dispatched on a CPU, on the run queue of its CPU, on a wait channel, in the hands of a
forker, waker or migration, or on the zombie list of the CPU it exited on. No thread is dispatched on a CPU or on
its run queue while another CPU uses the stack of the thread, and no CPU uses the stack of a zombie that is
about to be destroyed. -/
structure Safe (s : ThreadSys n) : Prop where
  place : ∀ t, s.live t = true → ∃! p, t ∈ s.content p
  once : ∀ p, (s.content p).Nodup
  alive : ∀ p, ∀ t ∈ s.content p, s.live t = true
  queue : ∀ c, ∀ t ∈ s.queues.runqueue c, s.queues.tcpu t = c
  zombie : ∀ c, ∀ t ∈ s.zombies c, s.queues.tcpu t = c
  dispatched : ∀ c d, (s.mode c).dispatched = true → s.stack d = s.curthread c → d = c
  queued : ∀ c d, s.stack d ∈ s.queues.runqueue c → d = c
  destroyed : ∀ c, s.mode c = .exorcising → ∀ z ∈ s.zombies c,
    s.state z = .zombie ∧ ∀ d, s.stack d ≠ z ∧ s.curthread d ≠ z

/-- The invariant contains what the placement of threads promises. -/
lemma Inv.safe (inv : s.Inv) : s.Safe where
  place _ lv := inv.placed.exists_unique lv
  once := inv.placed.nodup
  alive _ _ mem := inv.placed.of_mem mem
  queue _ _ mem := inv.queue mem
  zombie _ _ mem := (inv.zombies mem).1
  dispatched c d _ e := by rw [← inv.stack d, e, inv.current c]
  queued c d mem := (inv.stack d).symm.trans (inv.queue mem)
  destroyed c h z mem := by
    refine ⟨(inv.zombies mem).2, fun d => ⟨inv.zombie_unused h mem d, ?_⟩⟩
    rintro rfl
    have same : d = c := (inv.current d).symm.trans (inv.zombies mem).1
    subst same
    exact inv.not_zombie (mem_cpu (by rw [h]; rfl)) nofun d mem

end ThreadSys

/-- The thread system is safe after any run from boot, for any number of CPUs and threads. -/
theorem threads_placed {n : Nat} {s₀ s : ThreadSys n} (boot : s₀.Boot)
    (run : Relation.ReflTransGen ThreadStep s₀ s) : s.Safe := by
  have inv : s.Inv := by
    induction run with
    | refl => exact boot.inv
    | tail _ st ih => exact ih.step st
  exact inv.safe

/-- The CPU number of a thread among two. -/
lemma mod_two_lt (t : Nat) : t % 2 < 2 := Nat.mod_lt t Nat.two_pos

/-- Two CPUs at boot, running the threads `0` and `1`. -/
def twoCpus : ThreadSys 2 where
  queues := ⟨fun _ => [], fun t => ⟨t % 2, mod_two_lt t⟩⟩
  curthread c := c
  mode _ := .running
  zombies _ := []
  mig _ := none
  wchan _ := []
  hand _ := []
  state _ := .run
  live t := t < 2

/-- Two CPUs may boot so. -/
lemma twoCpus_boot : twoCpus.Boot where
  queues _ := rfl
  tcpu c := by fin_cases c <;> rfl
  mode _ := rfl
  zombies _ := rfl
  mig _ := rfl
  wchan _ := rfl
  hand _ := rfl
  live t := by
    simp only [twoCpus, decide_eq_true_iff]
    constructor
    · exact fun lt => ⟨⟨t, lt⟩, rfl⟩
    · intro h
      obtain ⟨c, rfl⟩ := h
      exact c.isLt

/-- The thread of the first CPU sleeps, the CPU idles on its stack, and the thread is woken: it is on the run
queue of the CPU that is still using its stack. -/
theorem threads_placed_woken : ∃ s : ThreadSys 2,
    s.mode 0 = .idle ∧ s.stack 0 = 0 ∧ s.queues.runqueue 0 = [0] ∧ s.Safe := by
  have boot : Relation.ReflTransGen ThreadStep twoCpus twoCpus := .refl
  have idles := (boot.tail (.sleep (c := 0) (w := 0) rfl rfl)).tail (.idle (c := 0) rfl rfl)
  have woken := (idles.tail (.wakeone (a := 0) (w := 0) rfl rfl)).tail (.makeRunnable (a := 0) rfl nofun)
  exact ⟨_, rfl, rfl, rfl, threads_placed twoCpus_boot woken⟩

end PDS.Kern
