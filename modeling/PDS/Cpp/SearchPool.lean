import PDS.Cpp.FGrep
import PDS.Lib.Packed

/-!
# The handles of the search threads

Port of `Malnati/lab3/SearchPool.cpp` with its array of handles. A step is one Win32 call with what follows it up to
the next one, or a thread that finishes, which can happen at any time; the events of a run choose which thread that is,
which handle a new thread gets, and which finished thread `WaitForMultipleObjects` answers with.

`Win32` is what the calls do as documented. A handle that has been closed can be given to another thread, so the calls
of `CloseHandle` are recorded with the thread, and a call for a handle that is not open is recorded too.
-/

namespace PDS.Cpp.Pool
open Packed

/-- Win32 `HANDLE`. -/
abbrev HANDLE := Nat

def NULL : HANDLE := 0

/-- The file and the text of a search. -/
abbrev Search := List Char × List Char

/-- The threads of the process and their handles. -/
structure Win32 where
  /-- the threads that have been created -/
  threads : List Search
  finished : List Nat
  /-- the thread of a handle that is open -/
  thread : HANDLE → Option Nat
  /-- the calls of `CloseHandle`, with the thread of the handle -/
  closed : List (Option Nat)

namespace Win32

def start : Win32 := ⟨[], [], fun _ => none, []⟩

/-- The threads that have not finished. -/
def unfinished (w : Win32) : List Nat := (List.range w.threads.length).filter (· ∉ w.finished)

/-- The thread of an open handle has finished. -/
def Signaled (w : Win32) (h : HANDLE) : Prop := ∃ t, w.thread h = some t ∧ t ∈ w.finished

/-- `WaitForMultipleObjects` takes up to 64 handles, which are open and different. -/
def Waitable (w : Win32) (handles : List HANDLE) : Prop :=
  handles ≠ [] ∧ handles.length ≤ maximumWaitObjects ∧ handles.Nodup ∧ ∀ h ∈ handles, (w.thread h).isSome

instance (w : Win32) (h : HANDLE) : Decidable (w.Signaled h) :=
  decidable_of_iff ((w.thread h).any (· ∈ w.finished) = true) (by simp [Signaled, Option.any_eq_true])

instance (w : Win32) (handles : List HANDLE) : Decidable (w.Waitable handles) :=
  inferInstanceAs (Decidable (handles ≠ [] ∧ handles.length ≤ maximumWaitObjects ∧ handles.Nodup ∧
    ∀ h ∈ handles, (w.thread h).isSome))

/-- `WaitForMultipleObjects(…, handles, FALSE, INFINITE)`, as soon as it can answer with `i`. -/
def waitAny (w : Win32) (handles : List HANDLE) (i : Nat) : Option Nat :=
  if ¬ w.Waitable handles then some waitFailed
  else if ∃ h ∈ handles[i]?, w.Signaled h then some i
  else none

/-- `WaitForMultipleObjects(…, handles, TRUE, INFINITE)`, as soon as it can answer. -/
def waitAll (w : Win32) (handles : List HANDLE) : Option Nat :=
  if ¬ w.Waitable handles then some waitFailed
  else if ∀ h ∈ handles, w.Signaled h then some 0
  else none

/-- `CloseHandle`, which fails for a handle that is not open. -/
def closeHandle (w : Win32) (h : HANDLE) : Bool × Win32 :=
  ((w.thread h).isSome, { w with thread := Function.update w.thread h none, closed := w.closed ++ [w.thread h] })

/-- `CreateThread`, when the new handle is `h`. -/
def createThread (w : Win32) (search : Search) (h : HANDLE) : Win32 :=
  { w with threads := w.threads ++ [search], thread := Function.update w.thread h (some w.threads.length) }

end Win32

/-- C++ `class SearchPool`, but for the file that the threads write to. -/
structure SearchPool where
  maxSize : Nat
  size : Nat
  handles : List HANDLE

namespace SearchPool

/-- `SearchPool::SearchPool(int, ResultFile*)`. -/
def new (maxSize : Int) : Option SearchPool :=
  if maxSize ≤ 0 then none else some ⟨maxSize.toNat, 0, List.replicate maxSize.toNat NULL⟩

/-- `handles[0..size)`. -/
def held (p : SearchPool) : List HANDLE := p.handles.take p.size

/-- `handles[h] = NULL; handles[h] = handles[--size];` -/
def recycle (p : SearchPool) (h : Nat) : SearchPool :=
  { p with size := p.size - 1, handles := swapRemove p.handles p.size h NULL }

/-- `handles[size++] = h;` -/
def push (p : SearchPool) (h : HANDLE) : SearchPool := { p with size := p.size + 1, handles := p.handles.set p.size h }

/-- `--size` and `handles[size] = NULL;` -/
def pop (p : SearchPool) : SearchPool := { p with size := p.size - 1, handles := p.handles.set (p.size - 1) NULL }

variable {p : SearchPool} {h : Nat} {handle : HANDLE}

/-- A handle is put behind the others. -/
lemma held_push (lt : p.size < p.handles.length) : (p.push handle).held = p.held ++ [handle] := take_push lt

/-- The last handle is taken away. -/
lemma pop_perm (pos : p.size ≠ 0) (get : p.handles[p.size - 1]? = some handle) :
    (handle :: p.pop.held).Perm p.held := by
  obtain ⟨lt, rfl⟩ := List.getElem?_eq_some_iff.1 get
  have split : p.held = p.pop.held ++ [p.handles[p.size - 1]] := by
    rw [held, held, pop, List.take_set_of_le (Nat.le_refl _)]
    conv_lhs => rw [← Nat.sub_one_add_one pos]
    exact List.take_succ_eq_append_getElem lt
  rw [split]
  exact (List.perm_append_singleton _ _).symm

/-- The handle at a place is taken away. -/
lemma recycle_perm (get : p.handles[h]? = some handle) (lt : h < p.size) (le : p.size ≤ p.handles.length) :
    (handle :: (p.recycle h).held).Perm p.held := by
  obtain ⟨n, size⟩ : ∃ n, p.size = n + 1 := ⟨p.size - 1, by omega⟩
  have here : h ≤ n := by omega
  have last : n < p.handles.length := by omega
  obtain ⟨lt', rfl⟩ := List.getElem?_eq_some_iff.1 get
  rw [held, held, recycle, size, Nat.add_sub_cancel, take_swapRemove here last]
  exact fill_perm here last

/-- The handle in the place of the one that is taken out. -/
lemma held_recycle (lt : h < p.size) (le : p.size ≤ p.handles.length) :
    (p.recycle h).held = (p.held.set h (p.held.getLastD NULL)).dropLast := by
  obtain ⟨n, size⟩ : ∃ n, p.size = n + 1 := ⟨p.size - 1, by omega⟩
  have here : h ≤ n := by omega
  have last : n < p.handles.length := by omega
  rw [held, held, recycle, size, Nat.add_sub_cancel, take_swapRemove here last, dropLast_fill here last]

end SearchPool

/-- Where the program is. -/
inductive Pc where
  /-- outside of the methods -/
  | idle
  /-- `addSearch` waits for one thread -/
  | waiting (search : Search)
  /-- `addSearch` calls `CloseHandle(handles[h])` -/
  | closing (search : Search) (h : Nat)
  /-- `addSearch` calls `CreateFileSearcher` -/
  | creating (search : Search)
  /-- `waitForSearchCompletion` waits -/
  | waitingAll
  /-- in the loop of the destructor -/
  | destroying
  | destroyed
  /-- an access outside of `handles` -/
  | fault

/-- The exceptions of `addSearch`, by the call that has failed, and that of `waitForSearchCompletion`. -/
inductive Thrown where
  | wait
  | close
  | create
  | waitAll
deriving DecidableEq

structure State where
  pool : SearchPool
  win : Win32
  pc : Pc
  thrown : List Thrown

/-- What can happen. -/
inductive Event where
  | addSearch (fileName text : List Char)
  | waitForSearchCompletion
  | destroy
  /-- the thread `t` finishes -/
  | finish (t : Nat)
  /-- `WaitForMultipleObjects` returns; where it waits for one handle, it answers with `i` -/
  | waited (i : Nat)
  /-- the next call of `CloseHandle`, or the end of the loop of the destructor -/
  | close
  /-- `CreateFileSearcher` returns `h` -/
  | created (h : HANDLE)

namespace State

/-- An exception leaves the pool as it is. -/
def throw (s : State) (e : Thrown) : State := { s with pc := .idle, thrown := s.thrown ++ [e] }

def faulty (s : State) : State := { s with pc := .fault }

def finish (s : State) (t : Nat) : Option State :=
  if t < s.win.threads.length ∧ t ∉ s.win.finished then
    some { s with win := { s.win with finished := t :: s.win.finished } }
  else none

/-- `addSearch` after `WaitForMultipleObjects`. -/
def waited (s : State) (search : Search) (h : Nat) : State :=
  if s.pool.size ≤ h then s.throw .wait else { s with pc := .closing search h }

/-- `addSearch` deletes the thread `h`. -/
def close (s : State) (search : Search) (h : Nat) : State :=
  match s.pool.handles[h]? with
  | none => s.faulty
  | some handle =>
    let (ok, win) := s.win.closeHandle handle
    if ¬ ok then { s with win }.throw .close
    else if s.pool.size = 0 then { s with win }.faulty
    else { s with win, pool := s.pool.recycle h, pc := .creating search }

/-- `addSearch` gets the handle `h` from `CreateFileSearcher`. -/
def created (s : State) (search : Search) (h : HANDLE) : Option State :=
  if h = NULL then some (s.throw .create)
  -- a handle that is open is not given to another thread
  else if (s.win.thread h).isSome then none
  else if s.pool.handles.length ≤ s.pool.size then some { s with win := s.win.createThread search h }.faulty
  else some { s with win := s.win.createThread search h, pool := s.pool.push h, pc := .idle }

/-- The loop of the destructor. -/
def destroy (s : State) : State :=
  if s.pool.size = 0 then { s with pc := .destroyed }
  else
    match s.pool.handles[s.pool.size - 1]? with
    | none => s.faulty
    | some handle => { s with win := (s.win.closeHandle handle).2, pool := s.pool.pop }

/-- A wait reads `size` handles. -/
def wait (s : State) (answer : Option Nat) (next : Nat → State) : Option State :=
  if s.pool.handles.length < s.pool.size then some s.faulty else answer.map next

end State

def step (s : State) : Event → Option State
  | .addSearch fileName text =>
    match s.pc with
    | .idle =>
      if s.pool.size = s.pool.maxSize then some { s with pc := .waiting (fileName, text) }
      else some { s with pc := .creating (fileName, text) }
    | _ => none
  | .waitForSearchCompletion =>
    match s.pc with
    | .idle => some { s with pc := .waitingAll }
    | _ => none
  | .destroy =>
    match s.pc with
    | .idle => some { s with pc := .destroying }
    | _ => none
  | .finish t => s.finish t
  | .waited i =>
    match s.pc with
    | .waiting search => s.wait (s.win.waitAny s.pool.held i) fun h => s.waited search h
    | .waitingAll => s.wait (s.win.waitAll s.pool.held) fun h =>
        if s.pool.size ≤ h then s.throw .waitAll else { s with pc := .idle }
    | _ => none
  | .close =>
    match s.pc with
    | .closing search h => some (s.close search h)
    | .destroying => some s.destroy
    | _ => none
  | .created h =>
    match s.pc with
    | .creating search => s.created search h
    | _ => none

/-- What a step can be, by the place of the program. -/
inductive Moves (s : State) : Event → State → Prop where
  | wait {fileName text} (pc : s.pc = .idle) (full : s.pool.size = s.pool.maxSize) :
    Moves s (.addSearch fileName text) { s with pc := .waiting (fileName, text) }
  | create {fileName text} (pc : s.pc = .idle) (room : s.pool.size ≠ s.pool.maxSize) :
    Moves s (.addSearch fileName text) { s with pc := .creating (fileName, text) }
  | waitAll (pc : s.pc = .idle) : Moves s .waitForSearchCompletion { s with pc := .waitingAll }
  | destroy (pc : s.pc = .idle) : Moves s .destroy { s with pc := .destroying }
  | finish {t s'} (next : s.finish t = some s') : Moves s (.finish t) s'
  | waited {search i s'} (pc : s.pc = .waiting search)
    (next : s.wait (s.win.waitAny s.pool.held i) (fun h => s.waited search h) = some s') : Moves s (.waited i) s'
  | waitedAll {i s'} (pc : s.pc = .waitingAll) (next : s.wait (s.win.waitAll s.pool.held)
      (fun h => if s.pool.size ≤ h then s.throw .waitAll else { s with pc := .idle }) = some s') :
    Moves s (.waited i) s'
  | close {search h} (pc : s.pc = .closing search h) : Moves s .close (s.close search h)
  | closeLast (pc : s.pc = .destroying) : Moves s .close s.destroy
  | created {search h s'} (pc : s.pc = .creating search) (next : s.created search h = some s') : Moves s (.created h) s'

/-- Inversion for a step of the pool. -/
lemma moves_of_step {s s' : State} {e : Event} (next : step s e = some s') : Moves s e s' := by
  cases e with
  | addSearch fileName text =>
    rw [step] at next
    split at next
    · next pc =>
      split_ifs at next with full
      · cases next
        exact .wait pc full
      · cases next
        exact .create pc full
    · cases next
  | waitForSearchCompletion =>
    rw [step] at next
    split at next
    · next pc =>
      cases next
      exact .waitAll pc
    · cases next
  | destroy =>
    rw [step] at next
    split at next
    · next pc =>
      cases next
      exact .destroy pc
    · cases next
  | finish t => exact .finish next
  | waited i =>
    rw [step] at next
    split at next
    · next search pc => exact .waited pc next
    · next pc => exact .waitedAll pc next
    · cases next
  | close =>
    rw [step] at next
    split at next
    · next search h pc =>
      cases next
      exact .close pc
    · next pc =>
      cases next
      exact .closeLast pc
    · cases next
  | created h =>
    rw [step] at next
    split at next
    · next search pc => exact .created pc next
    · cases next

/-- A thread finishes once. -/
lemma State.of_finish {s s' : State} {t : Nat} (next : s.finish t = some s') :
    (t < s.win.threads.length ∧ t ∉ s.win.finished) ∧
      s' = { s with win := { s.win with finished := t :: s.win.finished } } := by
  rw [State.finish] at next
  split_ifs at next with fresh
  cases next
  exact ⟨fresh, rfl⟩

/-- A pool that has been constructed. -/
def State.start (p : SearchPool) : State := ⟨p, .start, .idle, []⟩

/-- The events happen one after the other. -/
def run (s : State) (es : List Event) : Option State := es.foldlM step s

end PDS.Cpp.Pool
