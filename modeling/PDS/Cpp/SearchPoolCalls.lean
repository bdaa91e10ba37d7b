import PDS.Cpp.SearchPoolRun

/-!
# The search pool of the walk

The walk over a directory uses a pool of the numbers of threads, whose calls are one step each. Between two calls the
array of handles agrees with such a pool (`Sim`), and whatever happens during a call, that pool can make it
(`searchPool_refines`).
-/

namespace PDS.Cpp.Pool
open Packed Relation

/-- Calls that return, on the pool of the walk over a directory. -/
inductive Calls : Cpp.SearchPool → Cpp.SearchPool → Prop where
  | addSearch {p p'} (ready : List Nat → Nat) (fileName text : List Char)
    (call : p.addSearch ready fileName text = .ok p') : Calls p p'
  | waitForSearchCompletion {p p'} (ready : List Nat → Nat) (call : p.waitForSearchCompletion ready = .ok p') :
    Calls p p'

/-- The pool of the walk holds the numbers of the threads instead of their handles. -/
structure Sim (s : State) (p : Cpp.SearchPool) : Prop where
  maxSize : p.maxSize = s.pool.maxSize
  handles : p.handles.map some = s.pool.held.map s.win.thread
  started : p.started = s.win.threads
  finished : ∀ t ∈ p.finished, t ∈ s.win.finished

/-- The pool of the walk has made the calls that have returned; one that is creating a thread has had its wait. -/
def State.Follows (p₀ : Cpp.SearchPool) (s : State) : Prop :=
  match s.pc with
  | .creating _ => ∃ p q, ReflTransGen Calls p₀ p ∧ Sim s q ∧
      if p.handles.length = p.maxSize then ∃ ready, p.waitForOne ready = .ok q else q = p
  | .destroying | .destroyed | .fault => True
  | _ => ∃ p, ReflTransGen Calls p₀ p ∧ Sim s p

section

variable {m t i h : Nat} {s s' : State} {p q p₀ : Cpp.SearchPool} {search : Search} {handle : HANDLE}

/-- Two lists that agree still do when their last elements are moved. -/
lemma map_fill {l : List Nat} {held : List HANDLE} {f g : HANDLE → Option Nat} (same : l.map some = held.map f)
    (ne : held ≠ []) (keep : ∀ k ∈ (held.set h (held.getLastD NULL)).dropLast, g k = f k) :
    ((l.set h (l.getLastD 0)).dropLast).map some = ((held.set h (held.getLastD NULL)).dropLast).map g := by
  have last : some (l.getLastD 0) = f (held.getLastD NULL) := by
    have ends := congrArg List.getLast? same
    have last := List.getLast?_eq_some_getLast ne
    rw [List.getLast?_map, List.getLast?_map, last, Option.map_some] at ends
    obtain ⟨b, last', eq⟩ := Option.map_eq_some_iff.1 ends
    rw [List.getLastD_eq_getLast?, List.getLastD_eq_getLast?, last, last']
    exact eq
  rw [List.map_congr_left keep, List.map_dropLast, List.map_dropLast, List.map_set, List.map_set, same, last]

namespace Sim

/-- Only what the pool and the threads are matters. -/
lemma goto (sim : Sim s p) {pc : Pc} {thrown : List Thrown} : Sim ⟨s.pool, s.win, pc, thrown⟩ p :=
  ⟨sim.maxSize, sim.handles, sim.started, sim.finished⟩

/-- The two pools hold as many handles. -/
lemma length (sim : Sim s p) (inv : Inv m s) : p.handles.length = s.pool.size := by
  have length := congrArg List.length sim.handles
  rwa [List.length_map, List.length_map, inv.length_held] at length

/-- A handle that is waited for and closed. -/
lemma close (sim : Sim s p) (inv : Inv m s) (pc : s.pc = .closing search h) (le : m ≤ maximumWaitObjects) :
    p.handles.length = p.maxSize ∧ ∃ q, p.waitForOne (fun _ => h) = .ok q ∧ Sim (s.close search h) q ∧
      (s.close search h).pc = .creating search := by
  obtain ⟨handle, t, full, lt, get, eq, finished, closed⟩ := inv.close_eq pc
  have size := inv.le
  have length := sim.length inv
  have ne : p.handles ≠ [] := List.ne_nil_of_length_pos (by omega)
  have held : s.pool.held[h]? = some handle := by
    rw [SearchPool.held, List.getElem?_take_of_lt lt, get]
  have number : p.handles[h]? = some t := by
    have same := congrArg (·[h]?) sim.handles
    simp only [List.getElem?_map, held, Option.map_some, eq] at same
    obtain ⟨k, get', e⟩ := Option.map_eq_some_iff.1 same
    cases e
    exact get'
  have answer : waitForMultipleObjects (fun _ => h) p.handles = h := by
    rw [waitForMultipleObjects, if_neg]
    rintro (nil | long)
    · exact ne nil
    · omega
  have perm := SearchPool.recycle_perm get lt (inv.len ▸ size)
  have out : handle ∉ (s.pool.recycle h).held := (List.nodup_cons.1 (perm.nodup_iff.2 inv.books.nodup)).1
  rw [Cpp.SearchPool.waitForOne, answer, if_neg (by omega), closed]
  refine ⟨by rw [length, sim.maxSize, full], _, rfl, ⟨sim.maxSize, ?_, sim.started, ?_⟩, rfl⟩
  · change _ = (s.pool.recycle h).held.map (Function.update s.win.thread handle none)
    have recycled := SearchPool.held_recycle lt (inv.len ▸ size)
    rw [recycled] at out ⊢
    refine map_fill sim.handles (List.ne_nil_of_length_pos (by rw [inv.length_held]; omega)) fun k mem => ?_
    refine Function.update_of_ne ?_ _ _
    rintro rfl
    exact out mem
  · intro k mem
    rw [List.getD_eq_getElem?_getD, number] at mem
    cases List.mem_cons.1 mem with
    | inl same => exact same ▸ finished
    | inr mem => exact sim.finished k mem

/-- A thread is created. -/
lemma create (sim : Sim s p) (new : s.win.thread handle = none) (mem : ∀ k, k ∈ s.pool.held ↔ (s.win.thread k).isSome)
    (lt : s.pool.size < s.pool.handles.length) {thrown : List Thrown} {pc : Pc} :
    Sim ⟨s.pool.push handle, s.win.createThread search handle, pc, thrown⟩
      { p with handles := p.handles ++ [p.started.length], started := p.started ++ [search] } := by
  refine ⟨sim.maxSize, ?_, congrArg (· ++ [search]) sim.started, sim.finished⟩
  have same : s.pool.held.map (Function.update s.win.thread handle (some s.win.threads.length)) =
      s.pool.held.map s.win.thread := by
    refine List.map_congr_left fun k held => Function.update_of_ne ?_ _ _
    rintro rfl
    rw [mem, new] at held
    cases held
  change _ = (s.pool.push handle).held.map (Function.update s.win.thread handle (some s.win.threads.length))
  rw [SearchPool.held_push lt, List.map_append, List.map_append, same, sim.handles, sim.started, List.map_singleton,
    List.map_singleton, Function.update_self]

/-- All threads have been waited for. -/
lemma waitAll (sim : Sim s p) (inv : Inv m s) (waitable : s.win.Waitable s.pool.held)
    (signaled : ∀ h ∈ s.pool.held, s.win.Signaled h) {thrown : List Thrown} {pc : Pc} :
    ∃ q, p.waitForSearchCompletion (fun _ => 0) = .ok q ∧ Sim ⟨s.pool, s.win, pc, thrown⟩ q := by
  have length := sim.length inv
  have held := inv.length_held
  have pos := List.length_pos_of_ne_nil waitable.1
  have short := waitable.2.1
  have answer : waitForMultipleObjects (fun _ => 0) p.handles = 0 := by
    rw [waitForMultipleObjects, if_neg]
    rintro (nil | long)
    · rw [nil, List.length_nil] at length
      omega
    · omega
  rw [Cpp.SearchPool.waitForSearchCompletion, answer, if_neg (by omega)]
  refine ⟨_, rfl, sim.maxSize, sim.handles, sim.started, fun t mem => ?_⟩
  cases List.mem_append.1 mem with
  | inl mem =>
    have here : some t ∈ s.pool.held.map s.win.thread := sim.handles ▸ List.mem_map_of_mem mem
    obtain ⟨h, held, eq⟩ := List.mem_map.1 here
    obtain ⟨k, eq', finished⟩ := signaled h held
    cases eq.symm.trans eq'
    exact finished
  | inr mem => exact sim.finished t mem

end Sim

namespace State.Follows

/-- The first call. -/
lemma start (m : Nat) : State.Follows (.new m) (.start ⟨m, 0, List.replicate m NULL⟩) :=
  ⟨_, .refl, rfl, rfl, rfl, fun _ no => absurd no List.not_mem_nil⟩

/-- Threads that finish are of no matter. -/
lemma finish (follows : s.Follows p₀) (step : s.finish t = some s') : s'.Follows p₀ := by
  obtain ⟨-, rfl⟩ := State.of_finish step
  have sim {p : Cpp.SearchPool} (sim : Sim s p) :
      Sim { s with win := { s.win with finished := t :: s.win.finished } } p :=
    ⟨sim.maxSize, sim.handles, sim.started, fun k mem => List.mem_cons_of_mem t (sim.finished k mem)⟩
  unfold State.Follows at follows ⊢
  cases s with
  | mk pool win pc thrown =>
    cases pc with
    | creating search =>
      obtain ⟨p, q, calls, sim', wait⟩ := follows
      exact ⟨p, q, calls, sim sim', wait⟩
    | destroying => trivial
    | destroyed => trivial
    | fault => trivial
    | _ =>
      obtain ⟨p, calls, sim'⟩ := follows
      exact ⟨p, calls, sim sim'⟩

/-- `addSearch` waits for one thread. -/
lemma waited (follows : s.Follows p₀) (pc : s.pc = .waiting search)
    (step : s.wait (s.win.waitAny s.pool.held i) (fun h => s.waited search h) = some s') : s'.Follows p₀ := by
  simp only [State.Follows, pc] at follows
  obtain ⟨p, calls, sim⟩ := follows
  rw [State.wait] at step
  split_ifs at step
  · cases step
    trivial
  · obtain ⟨h, -, rfl⟩ := Option.map_eq_some_iff.1 step
    rw [State.waited]
    split_ifs
    · exact ⟨p, calls, sim.goto⟩
    · exact ⟨p, calls, sim.goto⟩

/-- `waitForSearchCompletion` waits for all of them. -/
lemma waitedAll (follows : s.Follows p₀) (inv : Inv m s) (le : m ≤ maximumWaitObjects) (pc : s.pc = .waitingAll)
    (step : s.wait (s.win.waitAll s.pool.held)
      (fun h => if s.pool.size ≤ h then s.throw .waitAll else { s with pc := .idle }) = some s') : s'.Follows p₀ := by
  simp only [State.Follows, pc] at follows
  obtain ⟨p, calls, sim⟩ := follows
  rw [State.wait] at step
  split_ifs at step
  · cases step
    trivial
  · obtain ⟨h, answer, rfl⟩ := Option.map_eq_some_iff.1 step
    split_ifs with failed
    · exact ⟨p, calls, sim.goto⟩
    · rw [Win32.waitAll] at answer
      split_ifs at answer with waitable all
      · obtain ⟨q, call, sim'⟩ := sim.waitAll inv waitable all
        exact ⟨q, calls.tail (.waitForSearchCompletion _ call), sim'⟩
      · cases answer
        have size := inv.le
        rw [waitFailed] at failed
        rw [maximumWaitObjects] at le
        omega

/-- `addSearch` creates a thread and returns. -/
lemma created (follows : s.Follows p₀) (inv : Inv m s) (pc : s.pc = .creating search) (ne : handle ≠ NULL)
    (step : s.created search handle = some s') : s'.Follows p₀ := by
  simp only [State.Follows, pc] at follows
  obtain ⟨p, q, calls, sim, wait⟩ := follows
  rw [State.created, if_neg ne] at step
  split_ifs at step with used full
  · cases step
    trivial
  · cases step
    have new : s.win.thread handle = none := Option.not_isSome_iff_eq_none.1 used
    refine ⟨_, calls.tail ?_, sim.create new inv.books.mem (Nat.not_le.1 full)⟩
    split_ifs at wait with whole
    · obtain ⟨ready, wait⟩ := wait
      refine .addSearch ready search.1 search.2 ?_
      rw [Cpp.SearchPool.addSearch, if_pos whole, wait]
      rfl
    · rw [wait]
      refine .addSearch (fun _ => 0) search.1 search.2 ?_
      rw [Cpp.SearchPool.addSearch, if_neg whole]
      rfl

/-- The slot of a thread that has finished is recycled. -/
lemma close (follows : s.Follows p₀) (inv : Inv m s) (le : m ≤ maximumWaitObjects) (pc : s.pc = .closing search h) :
    (s.close search h).Follows p₀ := by
  simp only [State.Follows, pc] at follows
  obtain ⟨p, calls, sim⟩ := follows
  obtain ⟨full, q, wait, sim', pc'⟩ := sim.close inv pc le
  simp only [State.Follows, pc']
  refine ⟨p, q, calls, sim', ?_⟩
  rw [if_pos full]
  exact ⟨_, wait⟩

/-- The call of the destructor. -/
lemma destroy (pc : s.pc = .destroying) : s.destroy.Follows p₀ := by
  rw [State.destroy]
  split_ifs
  · trivial
  · cases s.pool.handles[s.pool.size - 1]? with
    | none => trivial
    | some handle => simp only [State.Follows, pc]

/-- The step lemma. -/
lemma step (follows : s.Follows p₀) (inv : Inv m s) (le : m ≤ maximumWaitObjects) {e : Event}
    (ne : e ≠ .created NULL) (next : step s e = some s') : s'.Follows p₀ := by
  have idle (pc : s.pc = .idle) : ∃ p, ReflTransGen Calls p₀ p ∧ Sim s p := by
    simpa only [State.Follows, pc] using follows
  cases moves_of_step next with
  | wait pc =>
    obtain ⟨p, calls, sim⟩ := idle pc
    exact ⟨p, calls, sim.goto⟩
  | create pc room =>
    obtain ⟨p, calls, sim⟩ := idle pc
    refine ⟨p, p, calls, sim.goto, ?_⟩
    rw [sim.length inv, sim.maxSize, if_neg room]
  | waitAll pc =>
    obtain ⟨p, calls, sim⟩ := idle pc
    exact ⟨p, calls, sim.goto⟩
  | destroy => trivial
  | finish next => exact follows.finish next
  | waited pc next => exact follows.waited pc next
  | waitedAll pc next => exact follows.waitedAll inv le pc next
  | close pc => exact follows.close inv le pc
  | closeLast pc => exact destroy pc
  | created pc next => exact follows.created inv pc (fun null => ne (congrArg _ null)) next

/-- The run lemma. -/
lemma run (follows : s.Follows p₀) (inv : Inv m s) (one : 1 ≤ m) (le : m ≤ maximumWaitObjects) {es : List Event}
    (created : .created NULL ∉ es) (run : run s es = some s') : s'.Follows p₀ := by
  induction es generalizing s with
  | nil =>
    cases run
    exact follows
  | cons e es ih =>
    obtain ⟨s₁, first, rest⟩ := Option.bind_eq_some_iff.1 run
    have ne : e ≠ .created NULL := fun same => created (same ▸ List.mem_cons_self)
    have later : .created NULL ∉ es := fun mem => created (List.mem_cons_of_mem e mem)
    exact ih (follows.step inv le ne first) (inv.step one le first) later rest

end State.Follows

/-- As long as threads can be created, the calls that return are calls of the pool of the walk, with the same searches
and the same threads. -/
theorem searchPool_refines (one : 1 ≤ m) (le : m ≤ maximumWaitObjects) {es : List Event} (created : .created NULL ∉ es)
    (run : run (.start ⟨m, 0, List.replicate m NULL⟩) es = some s) (idle : s.pc = .idle) :
    ∃ p, ReflTransGen Calls (.new m) p ∧ Sim s p := by
  have follows := (State.Follows.start m).run (Inv.start m) one le created run
  simpa only [State.Follows, idle] using follows

end

end PDS.Cpp.Pool
