import PDS.Cpp.SearchPool

/-!
# The search pool keeps its handles

`Books` ties the handles that are held to the threads: a handle is held as long as it is open, and every thread has been
closed once or has one handle. The invariant adds what holds between two Win32 calls. A recycled slot may be that of the
last handle itself, which `SearchPool.recycle_perm` covers.
-/

namespace PDS.Cpp.Pool
open Packed

section

variable {w : Win32} {held held' handles : List HANDLE} {h : HANDLE} {search : Search} {t i n : Nat}

/-- A handle that is not among others says nothing about their threads. -/
lemma update_of_not {f : HANDLE → Option Nat} {x : Option Nat} (no : h ∉ held) :
    ∀ k ∈ held, Function.update f h x k = f k := by
  intro k mem
  refine Function.update_of_ne ?_ _ _
  rintro rfl
  exact no mem

/-- The handles that are held are those that are open, and every thread has been closed or has one of them. -/
structure Books (held : List HANDLE) (w : Win32) : Prop where
  nodup : held.Nodup
  mem : ∀ h, h ∈ held ↔ (w.thread h).isSome
  once : ∃ ts, w.closed = ts.map some ∧ (ts ++ held.filterMap w.thread).Perm (List.range w.threads.length)

namespace Books

/-- No thread has been started. -/
lemma start : Books [] .start := by
  refine ⟨List.nodup_nil, fun h => ?_, [], rfl, .nil⟩
  exact iff_of_false List.not_mem_nil Bool.false_ne_true

/-- Threads that finish are of no matter. -/
lemma finish (books : Books held w) : Books held { w with finished := t :: w.finished } :=
  ⟨books.nodup, books.mem, books.once⟩

/-- The thread of a handle that is held. -/
lemma exists_thread (books : Books held w) (mem : h ∈ held) :
    ∃ t, w.thread h = some t ∧ t < w.threads.length := by
  obtain ⟨t, eq⟩ := Option.isSome_iff_exists.1 ((books.mem h).1 mem)
  obtain ⟨ts, -, perm⟩ := books.once
  have here := perm.subset (List.mem_append_right ts (List.mem_filterMap.2 ⟨h, mem, eq⟩))
  exact ⟨t, eq, List.mem_range.1 here⟩

/-- One of the handles is closed. -/
lemma close (books : Books held w) (perm : (h :: held').Perm held) :
    (w.closeHandle h).1 = true ∧ Books held' (w.closeHandle h).2 := by
  have nodup := perm.nodup_iff.2 books.nodup
  obtain ⟨no, nodup'⟩ := List.nodup_cons.1 nodup
  have open_ := (books.mem h).1 (perm.subset List.mem_cons_self)
  obtain ⟨t, eq⟩ := Option.isSome_iff_exists.1 open_
  refine ⟨open_, nodup', fun k => ?_, ?_⟩
  · change k ∈ held' ↔ (Function.update w.thread h none k).isSome
    obtain rfl | ne := eq_or_ne k h
    · rw [Function.update_self]
      exact iff_of_false no Bool.false_ne_true
    · rw [Function.update_of_ne ne, ← books.mem, ← perm.mem_iff, List.mem_cons, or_iff_right ne]
  · obtain ⟨ts, closed, all⟩ := books.once
    have same : held'.filterMap (Function.update w.thread h none) = held'.filterMap w.thread :=
      List.filterMap_congr (update_of_not no)
    refine ⟨ts ++ [t], ?_, ?_⟩
    · change w.closed ++ [w.thread h] = _
      rw [closed, eq, List.map_append, List.map_singleton]
    · change (ts ++ [t] ++ held'.filterMap (Function.update w.thread h none)).Perm _
      have move := perm.filterMap w.thread
      rw [List.filterMap_cons_some eq] at move
      rw [same, List.append_assoc, List.singleton_append]
      exact (move.append_left ts).trans all

/-- A thread is created. -/
lemma create (books : Books held w) (new : w.thread h = none) : Books (held ++ [h]) (w.createThread search h) := by
  have no : h ∉ held := by
    rw [books.mem, new]
    exact Bool.false_ne_true
  refine ⟨?_, fun k => ?_, ?_⟩
  · exact (List.nodup_cons.2 ⟨no, books.nodup⟩).perm (List.perm_append_singleton h held).symm
  · change k ∈ held ++ [h] ↔ (Function.update w.thread h (some w.threads.length) k).isSome
    rw [List.mem_append, List.mem_singleton]
    obtain rfl | ne := eq_or_ne k h
    · rw [Function.update_self]
      exact iff_of_true (.inr rfl) rfl
    · rw [Function.update_of_ne ne, ← books.mem, or_iff_left ne]
  · obtain ⟨ts, closed, all⟩ := books.once
    have same : held.filterMap (Function.update w.thread h (some w.threads.length)) = held.filterMap w.thread :=
      List.filterMap_congr (update_of_not no)
    have here : [h].filterMap (Function.update w.thread h (some w.threads.length)) = [w.threads.length] := by
      rw [List.filterMap_cons_some (Function.update_self ..), List.filterMap_nil]
    refine ⟨ts, closed, ?_⟩
    change (ts ++ (held ++ [h]).filterMap (Function.update w.thread h (some w.threads.length))).Perm
      (List.range (w.threads ++ [search]).length)
    rw [List.filterMap_append, same, here, ← List.append_assoc, List.length_append, List.length_singleton,
      List.range_succ]
    exact all.append_right _

/-- As long as only threads have been closed that have finished, the others have a handle. -/
lemma unfinished_le (books : Books held w) (early : ∀ t, some t ∈ w.closed → t ∈ w.finished) :
    w.unfinished.length ≤ held.length := by
  obtain ⟨ts, closed, all⟩ := books.once
  have sub : w.unfinished ⊆ held.filterMap w.thread := by
    intro t mem
    obtain ⟨lt, late⟩ := List.mem_filter.1 mem
    have late := of_decide_eq_true late
    cases List.mem_append.1 (all.symm.subset lt) with
    | inl mem =>
      refine absurd (early t ?_) late
      rw [closed]
      exact List.mem_map_of_mem mem
    | inr mem => exact mem
  have once : w.unfinished.Nodup := List.nodup_range.filter _
  exact (once.subperm sub).length_le.trans (List.length_filterMap_le _ _)

/-- When no handle is held, every one has been closed, and once. -/
lemma closed_perm (books : Books [] w) : w.closed.Perm ((List.range w.threads.length).map some) := by
  obtain ⟨ts, closed, all⟩ := books.once
  rw [List.filterMap_nil, List.append_nil] at all
  rw [closed]
  exact all.map some

end Books

/-- A thread that finishes is not counted any more. -/
lemma unfinished_finish_le :
    ({ w with finished := t :: w.finished } : Win32).unfinished.length ≤ w.unfinished.length := by
  refine (List.monotone_filter_right _ fun k late => ?_).length_le
  exact decide_eq_true fun mem => of_decide_eq_true late (List.mem_cons_of_mem t mem)

end

/-- The destructor has been called. -/
def Pc.Ending : Pc → Prop
  | .destroying | .destroyed => True
  | _ => False

/-- What holds at a place of the program. -/
def State.Here (s : State) : Prop :=
  match s.pc with
  | .waiting _ => s.pool.size = s.pool.maxSize
  | .closing _ h => s.pool.size = s.pool.maxSize ∧ h < s.pool.size ∧
      ∃ handle, s.pool.handles[h]? = some handle ∧ s.win.Signaled handle
  | .creating _ => s.pool.size < s.pool.maxSize
  | .destroyed => s.pool.size = 0
  | .fault => False
  | _ => True

/-- The invariant of a pool for `m` searches. -/
structure Inv (m : Nat) (s : State) : Prop where
  max : s.pool.maxSize = m
  len : s.pool.handles.length = m
  le : s.pool.size ≤ m
  books : Books s.pool.held s.win
  early : ¬ s.pc.Ending → ∀ t, some t ∈ s.win.closed → t ∈ s.win.finished
  few : s.win.unfinished.length ≤ m
  calm : .wait ∉ s.thrown ∧ .close ∉ s.thrown
  here : s.Here

namespace Inv

variable {m t i h : Nat} {s s' : State} {e : Thrown} {search : Search} {handle : HANDLE} {pc : Pc}

/-- The pool is empty at the start. -/
lemma start (m : Nat) : Inv m (.start ⟨m, 0, List.replicate m NULL⟩) :=
  ⟨rfl, List.length_replicate, m.zero_le, .start, fun _ _ mem => absurd mem List.not_mem_nil, m.zero_le,
    ⟨List.not_mem_nil, List.not_mem_nil⟩, trivial⟩

/-- The pool holds as many handles as it has places in use. -/
lemma length_held (inv : Inv m s) : s.pool.held.length = s.pool.size := by
  rw [SearchPool.held, List.length_take, inv.len, min_eq_left inv.le]

/-- The program goes on. -/
lemma goto (inv : Inv m s) (alive : ¬ s.pc.Ending) (here : { s with pc }.Here) : Inv m { s with pc } :=
  ⟨inv.max, inv.len, inv.le, inv.books, fun _ => inv.early alive, inv.few, inv.calm, here⟩

/-- An exception leaves the pool as it is. -/
lemma throw (inv : Inv m s) (alive : ¬ s.pc.Ending) (wait : e ≠ .wait) (close : e ≠ .close) : Inv m (s.throw e) := by
  refine ⟨inv.max, inv.len, inv.le, inv.books, fun _ => inv.early alive, inv.few, ?_, trivial⟩
  constructor
  · intro mem
    cases List.mem_append.1 mem with
    | inl mem => exact inv.calm.1 mem
    | inr mem => exact wait (List.mem_singleton.1 mem).symm
  · intro mem
    cases List.mem_append.1 mem with
    | inl mem => exact inv.calm.2 mem
    | inr mem => exact close (List.mem_singleton.1 mem).symm

/-- The end of a thread leaves the pool as it is. -/
lemma finish (inv : Inv m s) (step : s.finish t = some s') : Inv m s' := by
  obtain ⟨-, rfl⟩ := State.of_finish step
  refine ⟨inv.max, inv.len, inv.le, inv.books.finish, ?_, unfinished_finish_le.trans inv.few, inv.calm, ?_⟩
  · exact fun alive k mem => List.mem_cons_of_mem t (inv.early alive k mem)
  · have here := inv.here
    unfold State.Here at here ⊢
    cases s with
    | mk pool win pc thrown =>
      cases pc with
      | closing search h =>
        obtain ⟨full, lt, handle, get, k, eq, mem⟩ := here
        exact ⟨full, lt, handle, get, k, eq, List.mem_cons_of_mem t mem⟩
      | _ => exact here

/-- The handles can be waited for when there are some. -/
lemma waitable (inv : Inv m s) (le : m ≤ maximumWaitObjects) (pos : 0 < s.pool.size) :
    s.win.Waitable s.pool.held := by
  refine ⟨?_, ?_, inv.books.nodup, fun h mem => (inv.books.mem h).1 mem⟩
  · apply List.ne_nil_of_length_pos
    rwa [inv.length_held]
  · rw [inv.length_held]
    exact inv.le.trans le

/-- `addSearch` goes on with a thread that has finished. -/
lemma waited (inv : Inv m s) (one : 1 ≤ m) (le : m ≤ maximumWaitObjects) (pc : s.pc = .waiting search)
    (step : s.wait (s.win.waitAny s.pool.held i) (fun h => s.waited search h) = some s') : Inv m s' := by
  have here := inv.here
  simp only [State.Here, pc] at here
  rw [State.wait, if_neg (by rw [inv.len]; exact Nat.not_lt.2 inv.le), Win32.waitAny,
    if_neg (not_not_intro (inv.waitable le (by rw [here, inv.max]; exact one)))] at step
  split_ifs at step with signaled
  · cases step
    obtain ⟨handle, get, signaled⟩ := signaled
    obtain ⟨lt, eq⟩ := List.getElem?_eq_some_iff.1 get
    rw [inv.length_held] at lt
    change Inv m (s.waited search i)
    rw [State.waited, if_neg (Nat.not_le.2 lt)]
    refine inv.goto (by rw [pc]; exact id) ⟨here, lt, handle, ?_, signaled⟩
    rw [← get, SearchPool.held, List.getElem?_take_of_lt lt]
  · cases step

/-- `addSearch` is about to delete a thread that has finished. -/
lemma close_eq (inv : Inv m s) (pc : s.pc = .closing search h) :
    ∃ handle t, s.pool.size = s.pool.maxSize ∧ h < s.pool.size ∧ s.pool.handles[h]? = some handle ∧
      s.win.thread handle = some t ∧ t ∈ s.win.finished ∧ s.close search h =
        { s with win := (s.win.closeHandle handle).2, pool := s.pool.recycle h, pc := .creating search } := by
  have here := inv.here
  simp only [State.Here, pc] at here
  obtain ⟨full, lt, handle, get, t, eq, finished⟩ := here
  have pos : s.pool.size ≠ 0 := by omega
  obtain ⟨ok, -⟩ := inv.books.close (SearchPool.recycle_perm get lt (inv.len ▸ inv.le))
  refine ⟨handle, t, full, lt, get, eq, finished, ?_⟩
  rw [State.close, get]
  simp only [ok, not_true_eq_false, if_false, pos]

/-- `addSearch` deletes a thread that has finished. -/
lemma close (inv : Inv m s) (pc : s.pc = .closing search h) : Inv m (s.close search h) := by
  obtain ⟨handle, t, -, lt, get, eq, finished, closed⟩ := inv.close_eq pc
  have le := inv.le
  rw [closed]
  refine ⟨inv.max, ?_, ?_, (inv.books.close (SearchPool.recycle_perm get lt (inv.len ▸ le))).2, ?_, inv.few, inv.calm,
    ?_⟩
  · exact length_swapRemove.trans inv.len
  · exact (Nat.sub_le _ _).trans inv.le
  · intro _ k mem
    cases List.mem_append.1 mem with
    | inl mem => exact inv.early (by rw [pc]; exact id) k mem
    | inr mem =>
      rw [eq, List.mem_singleton] at mem
      cases mem
      exact finished
  · change s.pool.size - 1 < s.pool.maxSize
    rw [inv.max]
    omega

/-- `addSearch` creates a thread. -/
lemma created (inv : Inv m s) (pc : s.pc = .creating search) (step : s.created search handle = some s') :
    Inv m s' := by
  have here := inv.here
  simp only [State.Here, pc] at here
  have alive : ¬ s.pc.Ending := by
    rw [pc]
    exact id
  rw [State.created] at step
  split_ifs at step with null used full
  · cases step
    exact inv.throw alive (by decide) (by decide)
  · rw [inv.len, ← inv.max] at full
    omega
  · cases step
    have new : s.win.thread handle = none := Option.not_isSome_iff_eq_none.1 used
    have held : (s.pool.push handle).held = s.pool.held ++ [handle] := SearchPool.held_push (Nat.not_le.1 full)
    have books : Books _ (s.win.createThread search handle) := inv.books.create new
    rw [← held] at books
    have le : s.pool.size + 1 ≤ m := by
      rw [← inv.max]
      exact here
    have early := inv.early alive
    refine ⟨inv.max, ?_, le, books, fun _ => early, ?_, inv.calm, trivial⟩
    · exact List.length_set.trans inv.len
    · refine (books.unfinished_le early).trans ?_
      rw [held, List.length_append, inv.length_held, List.length_singleton]
      exact le

/-- The destructor closes the last handle. -/
lemma destroy (inv : Inv m s) (pc : s.pc = .destroying) : Inv m s.destroy := by
  have ending : s.pc.Ending := by
    rw [pc]
    exact trivial
  rw [State.destroy]
  split_ifs with zero
  · exact ⟨inv.max, inv.len, inv.le, inv.books, fun alive => absurd trivial alive, inv.few, inv.calm, zero⟩
  · have le := inv.le
    have lt : s.pool.size - 1 < s.pool.handles.length := by
      rw [inv.len]
      omega
    rw [List.getElem?_eq_getElem lt]
    have perm := SearchPool.pop_perm zero (List.getElem?_eq_getElem lt)
    refine ⟨inv.max, ?_, ?_, (inv.books.close perm).2, fun alive => absurd ending alive, inv.few, inv.calm, ?_⟩
    · exact List.length_set.trans inv.len
    · exact (Nat.sub_le _ _).trans inv.le
    · unfold State.Here
      simp only [pc]

/-- `waitForSearchCompletion` returns. -/
lemma waitedAll (inv : Inv m s) (pc : s.pc = .waitingAll) (next : s.wait (s.win.waitAll s.pool.held)
    (fun h => if s.pool.size ≤ h then s.throw .waitAll else { s with pc := .idle }) = some s') : Inv m s' := by
  have alive : ¬ s.pc.Ending := by
    rw [pc]
    exact id
  rw [State.wait, if_neg (by rw [inv.len]; exact Nat.not_lt.2 inv.le)] at next
  obtain ⟨h, -, rfl⟩ := Option.map_eq_some_iff.1 next
  split_ifs
  · exact inv.throw alive (by decide) (by decide)
  · exact inv.goto alive trivial

/-- The step lemma. -/
lemma step (inv : Inv m s) (one : 1 ≤ m) (le : m ≤ maximumWaitObjects) {e : Event} (next : step s e = some s') :
    Inv m s' := by
  have idle (pc : s.pc = .idle) : ¬ s.pc.Ending := by
    rw [pc]
    exact id
  cases moves_of_step next with
  | wait pc full => exact inv.goto (idle pc) full
  | create pc room => exact inv.goto (idle pc) (lt_of_le_of_ne (inv.max ▸ inv.le) room)
  | waitAll pc => exact inv.goto (idle pc) trivial
  | destroy =>
    exact ⟨inv.max, inv.len, inv.le, inv.books, fun alive => absurd trivial alive, inv.few, inv.calm, trivial⟩
  | finish next => exact inv.finish next
  | waited pc next => exact inv.waited one le pc next
  | waitedAll pc next => exact inv.waitedAll pc next
  | close pc => exact inv.close pc
  | closeLast pc => exact inv.destroy pc
  | created pc next => exact inv.created pc next

/-- The run lemma. -/
lemma run (inv : Inv m s) (one : 1 ≤ m) (le : m ≤ maximumWaitObjects) {es : List Event} (run : run s es = some s') :
    Inv m s' := by
  induction es generalizing s with
  | nil =>
    cases run
    exact inv
  | cons e es ih =>
    obtain ⟨s₁, first, rest⟩ := Option.bind_eq_some_iff.1 run
    exact ih (inv.step one le first) rest

end Inv

/-- A handle that is held is that of a thread that has finished, or that can finish. -/
lemma Inv.finishes {m : Nat} {s : State} {h : HANDLE} (inv : Inv m s) (mem : h ∈ s.pool.held) :
    s.win.Signaled h ∨ ∃ t s', Pool.step s (.finish t) = some s' := by
  obtain ⟨t, eq, lt⟩ := inv.books.exists_thread mem
  by_cases done : t ∈ s.win.finished
  · exact .inl ⟨t, eq, done⟩
  · exact .inr ⟨t, _, if_pos ⟨lt, done⟩⟩

/-- A method that has been called is never stuck: it goes on, or a thread can finish for which it may be waiting. -/
theorem searchPool_progress {m : Nat} {s : State} (inv : Inv m s) (one : 1 ≤ m) (le : m ≤ maximumWaitObjects)
    (busy : s.pc ≠ .idle) (alive : s.pc ≠ .destroyed) : ∃ e s', step s e = some s' := by
  have here := inv.here
  have short : ¬ s.pool.handles.length < s.pool.size := inv.len ▸ Nat.not_lt.2 inv.le
  cases pc : s.pc with
  | idle => exact absurd pc busy
  | destroyed => exact absurd pc alive
  | fault =>
    simp only [State.Here, pc] at here
  | closing search h => exact ⟨.close, _, by rw [step, pc]⟩
  | destroying => exact ⟨.close, _, by rw [step, pc]⟩
  | creating search =>
    obtain ⟨h, new⟩ := Infinite.exists_notMem_finset (NULL :: s.pool.held).toFinset
    rw [List.mem_toFinset, List.mem_cons, not_or, inv.books.mem] at new
    simp only [State.Here, pc] at here
    rw [inv.max, ← inv.len] at here
    refine ⟨.created h, { s with win := s.win.createThread search h, pool := s.pool.push h, pc := .idle }, ?_⟩
    rw [step, pc]
    change s.created search h = _
    rw [State.created, if_neg new.1, if_neg new.2, if_neg (Nat.not_le.2 here)]
  | waiting search =>
    simp only [State.Here, pc] at here
    have pos : 0 < s.pool.held.length := by
      rw [inv.length_held, here, inv.max]
      exact one
    cases inv.finishes (List.getElem_mem pos) with
    | inl signaled =>
      have waitable := inv.waitable le (inv.length_held ▸ pos)
      have answer : s.win.waitAny s.pool.held 0 = some 0 := by
        rw [Win32.waitAny, if_neg (not_not_intro waitable), if_pos ⟨_, List.getElem?_eq_getElem pos, signaled⟩]
      refine ⟨.waited 0, s.waited search 0, ?_⟩
      rw [step, pc]
      change s.wait _ _ = _
      rw [State.wait, if_neg short, answer, Option.map_some]
    | inr late =>
      obtain ⟨t, s', step⟩ := late
      exact ⟨_, s', step⟩
  | waitingAll =>
    by_cases late : ∃ t s', step s (.finish t) = some s'
    · obtain ⟨t, s', step⟩ := late
      exact ⟨_, s', step⟩
    · have all : ∀ h ∈ s.pool.held, s.win.Signaled h := fun h mem => (inv.finishes mem).resolve_right late
      obtain ⟨h, answer⟩ : ∃ h, s.win.waitAll s.pool.held = some h := by
        rw [Win32.waitAll]
        split_ifs
        · exact ⟨_, rfl⟩
        · exact ⟨_, rfl⟩
      refine ⟨.waited 0, if s.pool.size ≤ h then s.throw .waitAll else { s with pc := .idle }, ?_⟩
      rw [step, pc]
      change s.wait _ _ = _
      rw [State.wait, if_neg short, answer, Option.map_some]

/-- The books of a pool for `m` searches. -/
structure Bookkept (m : Nat) (s : State) : Prop where
  size_le : s.pool.size ≤ m
  length_held : s.pool.held.length = s.pool.size
  held_nodup : s.pool.held.Nodup
  held_iff : ∀ h, h ∈ s.pool.held ↔ (s.win.thread h).isSome
  unfinished_le : s.win.unfinished.length ≤ m
  /-- the handle that `addSearch` is about to close is that of a thread that has finished -/
  closing : ∀ search h, s.pc = .closing search h → ∃ handle t, s.pool.handles[h]? = some handle ∧
    s.win.thread handle = some t ∧ t ∈ s.win.finished
  closed_finished : ¬ s.pc.Ending → ∀ t, some t ∈ s.win.closed → t ∈ s.win.finished
  /-- there are as many calls of `CloseHandle` as threads, one for each of them -/
  closed_once : s.pc = .destroyed → s.win.closed.Perm ((List.range s.win.threads.length).map some)
  no_fault : s.pc ≠ .fault
  no_failure : .wait ∉ s.thrown ∧ .close ∉ s.thrown

/-- The invariant says what is to be kept. -/
lemma Inv.bookkept {m : Nat} {s : State} (inv : Inv m s) : Bookkept m s := by
  refine ⟨inv.le, inv.length_held, inv.books.nodup, inv.books.mem, inv.few, ?_, inv.early, ?_, ?_, inv.calm⟩
  · intro search h pc
    obtain ⟨handle, t, -, -, get, eq, finished, -⟩ := inv.close_eq pc
    exact ⟨handle, t, get, eq, finished⟩
  · intro pc
    have here := inv.here
    simp only [State.Here, pc] at here
    have books := inv.books
    rw [SearchPool.held, here, List.take_zero] at books
    exact books.closed_perm
  · intro pc
    have here := inv.here
    simp only [State.Here, pc] at here

/-- Whatever the order in which the threads finish, a pool for up to 64 searches keeps the handles that are open, each
once, and closes every handle once, a recycled one after its thread has finished. -/
theorem searchPool_bookkeeping {m : Nat} (one : 1 ≤ m) (le : m ≤ 64) :
    ∃ p, SearchPool.new m = some p ∧ ∀ es s, run (.start p) es = some s → Bookkept m s := by
  refine ⟨⟨m, 0, List.replicate m NULL⟩, ?_, fun es s run => ((Inv.start m).run one le run).bookkept⟩
  rw [SearchPool.new, if_neg (by omega), Int.toNat_natCast]

/-- Two searches at a time, of which the second finishes first; its handle is given to the third. -/
theorem searchPool_bookkeeping_two : ∃ p es s, SearchPool.new 2 = some p ∧ run (.start p) es = some s ∧
    s.win.closed = [some 1, some 2, some 0] ∧ s.pc = .destroyed ∧ Bookkept 2 s := by
  obtain ⟨p, new, books⟩ := searchPool_bookkeeping (m := 2) (by decide) (by decide)
  cases new
  let es : List Event := [.addSearch ['a'] ['x'], .created 4, .addSearch ['b'] ['x'], .created 8,
    .addSearch ['c'] ['x'], .finish 1, .waited 1, .close, .created 8, .destroy, .close, .close, .close]
  exact ⟨_, es, _, rfl, rfl, rfl, rfl, books es _ rfl⟩

end PDS.Cpp.Pool
