import PDS.Cpp.FileSearcher
import PDS.Cpp.SearchPoolRun

/-!
# The program as a whole

Port of `Malnati/lab3/Main.cpp`, with the walk of `FGrep.cpp` as the main thread takes it, one entry of a directory or one
Win32 call at a time. In between, the threads of the pool search their files. A turn of a run is one step of the main
thread, one Win32 call within a method of the pool, or one step of a search.

The files of the tree do not change while the program runs, and what is written arrives, so that the test `rf.fail()` is
left out, as is what is printed to the console. A run stops where the process has exited. With a code other than `0`
there can be searches left at that point, and what they do to the result file that `~ResultFile` has deleted is not
modelled; with `0` there are none (`grep_output`).
-/

namespace PDS.Cpp
open Pool Journal

/-- A call of `execute(dirName, text, level)` that is in its loop, with what is left of the directory. -/
structure Frame where
  dirName : List Char
  level : Nat
  rest : Listing

/-- Where the main thread is. -/
inductive Walk where
  /-- in the loop of the innermost call of `execute`; without calls, `execute` has come to its end -/
  | looking (calls : List Frame)
  /-- in `addSearch` -/
  | adding (calls : List Frame)
  /-- in `waitForSearchCompletion`, at the end of a call within `calls` -/
  | waiting (calls : List Frame)
  /-- back in `main` -/
  | returned (r : Int)
  /-- in the destructor of `FGrep` -/
  | leaving (code : Int)
  /-- the result file is destroyed, and the process ends; the searches that are left take no more turns -/
  | exited (code : Int)
  /-- an exception has left `main` -/
  | aborted

/-- The process has ended. -/
def Walk.Ended : Walk → Prop
  | .exited _ | .aborted => True
  | _ => False

instance : DecidablePred Walk.Ended := fun walk =>
  match walk with
  | .exited _ | .aborted => .isTrue trivial
  | .looking _ | .adding _ | .waiting _ | .returned _ | .leaving _ => .isFalse id

/-- The process: the pool with its threads, the main thread, the result file, and where the searches are. -/
structure Process where
  pool : Pool.State
  walk : Walk
  rf : ResultFile
  searcher : Nat → Searcher

/-- Whose turn it is. -/
inductive Turn where
  | main
  /-- the next Win32 call in a method of the pool -/
  | call (e : Pool.Event)
  /-- the thread `t` -/
  | search (t : Nat)

/-- The event is a Win32 call in a method of the pool. -/
def IsCall : Pool.Event → Prop
  | .waited _ | .close | .created _ => True
  | .addSearch .. | .waitForSearchCompletion | .destroy | .finish _ => False

instance : DecidablePred IsCall := fun e =>
  match e with
  | .waited _ | .close | .created _ => .isTrue trivial
  | .addSearch .. | .waitForSearchCompletion | .destroy | .finish _ => .isFalse id

namespace Process

/-- The threads that have been created. -/
def threads (s : Process) : List Search := s.pool.win.threads

def goto (s : Process) (walk : Walk) : Process := { s with walk }

/-- `execute(dirName, text)`: when it returns `-1`, then so do all the calls that it is in. -/
def call (s : Process) (dirName : List Char) (listing : Listing) (calls : List Frame) : Process :=
  if maxPath - 3 < stringCchLength dirName then s.goto (.returned (-1))
  else
    match listing with
    | .done => s.goto (.returned (-1))
    | _ => s.goto (.looking (⟨dirName, 0, listing⟩ :: calls))

/-- A method of the pool begins. -/
def method (s : Process) (e : Pool.Event) (walk : Walk) : Option Process :=
  (Pool.step s.pool e).map fun pool => { s with pool, walk }

/-- A method of the pool is over when the pool is idle; the first exception ends the walk. -/
def resume (s : Process) (calls : List Frame) (caught : Walk) : Option Process :=
  match s.pool.pc with
  | .idle => some (s.goto (if s.pool.thrown = [] then .looking calls else caught))
  | _ => none

/-- The main thread. -/
def main (text : List Char) (s : Process) : Option Process :=
  match s.walk with
  | .looking [] => some (s.goto (.returned 0))
  | .looking (⟨dirName, level, .file name next⟩ :: calls) =>
    if IsDots name then some (s.goto (.looking (⟨dirName, level, next⟩ :: calls)))
    else s.method (.addSearch (filePath dirName name) text) (.adding (⟨dirName, level, next⟩ :: calls))
  | .looking (⟨dirName, level, .dir name sub next⟩ :: calls) =>
    if IsDots name then some (s.goto (.looking (⟨dirName, level, next⟩ :: calls)))
    else some (s.call (filePath dirName name) sub (⟨dirName, level, next⟩ :: calls))
  | .looking (⟨_, level, .done⟩ :: calls) =>
    if level = 0 then s.method .waitForSearchCompletion (.waiting calls) else some (s.goto (.looking calls))
  | .adding calls => s.resume calls (.returned (-1))
  | .waiting calls => s.resume calls .aborted
  -- `System error!`
  | .returned r => s.method .destroy (.leaving (if r ≠ 0 then -2 else 0))
  | .leaving code =>
    match s.pool.pc with
    | .destroyed => some (s.goto (.exited code))
    | _ => none
  | .exited _ | .aborted => none

/-- The thread `t`. -/
def search (contents : List Char → Option (List Char)) (s : Process) (t : Nat) : Option Process :=
  match s.threads[t]? with
  | none => none
  | some (fileName, text) =>
    match s.searcher t with
    | .returned _ => (Pool.step s.pool (.finish t)).map fun pool => { s with pool }
    | p => (doSearch contents fileName text t s.rf p).map fun (p, rf) =>
        { s with rf, searcher := Function.update s.searcher t p }

/-- One turn. -/
def step (contents : List Char → Option (List Char)) (text : List Char) (s : Process) (turn : Turn) : Option Process :=
  if s.walk.Ended then none
  else
    match turn with
    | .main => s.main text
    | .call e => if IsCall e then (Pool.step s.pool e).map fun pool => { s with pool } else none
    | .search t => s.search contents t

/-- `main` has made the result file and the pool, and calls `execute`. -/
def start (m : Nat) (dirName : List Char) (listing : Listing) : Process :=
  call ⟨.start ⟨m, 0, List.replicate m NULL⟩, .looking [], ⟨[], none⟩, fun _ => .opening⟩ dirName listing []

def run (contents : List Char → Option (List Char)) (text : List Char) (s : Process) (turns : List Turn) :
    Option Process := turns.foldlM (step contents text) s

end Process

namespace Pool

/-- All threads have finished. -/
def State.AllFinished (s : State) : Prop := ∀ t < s.win.threads.length, t ∈ s.win.finished

/-- What the Win32 calls in the methods of a pool can do. -/
inductive Goes (s s' : State) : Prop where
  | waited {search : Search} {h : Nat} (pc : s.pc = .waiting search) (eq : s' = { s with pc := .closing search h })
  | closed {search : Search} {h : Nat} (pc : s.pc = .closing search h) (pc' : s'.pc = .creating search)
    (threads : s'.win.threads = s.win.threads) (finished : s'.win.finished = s.win.finished)
    (thrown : s'.thrown = s.thrown)
  | refused {search : Search} (pc : s.pc = .creating search) (eq : s' = s.throw .create)
  | created {search : Search} (pc : s.pc = .creating search) (pc' : s'.pc = .idle)
    (threads : s'.win.threads = s.win.threads ++ [search]) (finished : s'.win.finished = s.win.finished)
    (thrown : s'.thrown = s.thrown) (size : s'.pool.size = s.pool.size + 1)
  | waitedAll (pc : s.pc = .waitingAll) (eq : s' = { s with pc := .idle }) (some : s.pool.size ≠ 0)
    (all : s.AllFinished)
  | empty (pc : s.pc = .waitingAll) (eq : s' = s.throw .waitAll) (none : s.pool.size = 0)
  | destroyed (pc : s.pc = .destroying) (pc' : s'.pc = .destroyed) (win : s'.win = s.win)
    (thrown : s'.thrown = s.thrown)
  | destroying (pc : s.pc = .destroying) (pc' : s'.pc = .destroying) (threads : s'.win.threads = s.win.threads)
    (finished : s'.win.finished = s.win.finished) (thrown : s'.thrown = s.thrown)
    (size : s'.pool.size + 1 = s.pool.size)

section

variable {m i h : Nat} {s s' : State} {e : Event} {search : Search} {handle : HANDLE}

/-- The threads whose handles are not held any more have finished, so those that are held are all. -/
lemma Inv.allFinished (inv : Inv m s) (alive : ¬ s.pc.Ending) (signaled : ∀ h ∈ s.pool.held, s.win.Signaled h) :
    s.AllFinished := by
  intro t lt
  obtain ⟨ts, closed, all⟩ := inv.books.once
  cases List.mem_append.1 (all.symm.subset (List.mem_range.2 lt)) with
  | inl mem =>
    refine inv.early alive t ?_
    rw [closed]
    exact List.mem_map_of_mem mem
  | inr mem =>
    obtain ⟨h, held, thread⟩ := List.mem_filterMap.1 mem
    obtain ⟨t', thread', finished⟩ := signaled h held
    cases thread.symm.trans thread'
    exact finished

/-- A wait for one handle, as the pool sees it. -/
lemma Inv.goes_waited (inv : Inv m s) (inv' : Inv m s') (pc : s.pc = .waiting search)
    (next : s.wait (s.win.waitAny s.pool.held i) (fun h => s.waited search h) = some s') : Goes s s' := by
  rw [State.wait, if_neg (by rw [inv.len]; exact Nat.not_lt.2 inv.le)] at next
  obtain ⟨h, -, rfl⟩ := Option.map_eq_some_iff.1 next
  rw [State.waited] at inv' ⊢
  split_ifs at inv' ⊢ with failed
  · exact absurd (List.mem_append_right _ (List.mem_singleton_self _)) inv'.calm.1
  · exact .waited pc rfl

/-- A thread is created, as the pool sees it. -/
lemma Inv.goes_created (inv : Inv m s) (pc : s.pc = .creating search) (next : s.created search handle = some s') :
    Goes s s' := by
  have here := inv.here
  simp only [State.Here, pc] at here
  rw [State.created] at next
  split_ifs at next with null used full
  · cases next
    exact .refused pc rfl
  · rw [inv.len, ← inv.max] at full
    omega
  · cases next
    exact .created pc rfl rfl rfl rfl rfl

/-- A wait for all handles, as the pool sees it. -/
lemma Inv.goes_waitedAll (inv : Inv m s) (le : m ≤ maximumWaitObjects) (pc : s.pc = .waitingAll)
    (next : s.wait (s.win.waitAll s.pool.held)
      (fun h => if s.pool.size ≤ h then s.throw .waitAll else { s with pc := .idle }) = some s') : Goes s s' := by
  rw [State.wait, if_neg (by rw [inv.len]; exact Nat.not_lt.2 inv.le)] at next
  obtain ⟨h, answer, rfl⟩ := Option.map_eq_some_iff.1 next
  rw [Win32.waitAll] at answer
  by_cases none : s.pool.size = 0
  · rw [if_pos (none ▸ Nat.zero_le h)]
    exact .empty pc rfl none
  · rw [if_neg (not_not_intro (inv.waitable le (Nat.pos_of_ne_zero none)))] at answer
    split_ifs at answer with signaled
    cases answer
    rw [if_neg (by omega)]
    exact .waitedAll pc rfl none (inv.allFinished (by rw [pc]; exact id) signaled)

/-- The destructor, as the pool sees it. -/
lemma Inv.goes_destroy (inv : Inv m s) (pc : s.pc = .destroying) : Goes s s.destroy := by
  rw [State.destroy]
  split_ifs with zero
  · exact .destroyed pc rfl rfl rfl
  · have le := inv.le
    have lt : s.pool.size - 1 < s.pool.handles.length := by
      rw [inv.len]
      omega
    rw [List.getElem?_eq_getElem lt]
    exact .destroying pc pc rfl rfl rfl (Nat.sub_one_add_one zero)

/-- The Win32 calls succeed, but for `CreateThread` and for a wait without handles. -/
lemma Inv.goes (inv : Inv m s) (one : 1 ≤ m) (le : m ≤ maximumWaitObjects) (call : IsCall e)
    (next : Pool.step s e = some s') : Goes s s' := by
  have inv' := inv.step one le next
  cases moves_of_step next with
  | wait | create | waitAll | destroy | finish => exact call.elim
  | waited pc next => exact inv.goes_waited inv' pc next
  | waitedAll pc next => exact inv.goes_waitedAll le pc next
  | close pc =>
    obtain ⟨handle, t, -, -, -, -, -, eq⟩ := inv.close_eq pc
    rw [eq]
    exact .closed pc rfl rfl rfl rfl
  | closeLast pc => exact inv.goes_destroy pc
  | created pc next => exact inv.goes_created pc next

end

end Pool

/-- What a turn can do. -/
inductive Takes (contents : List Char → Option (List Char)) (text : List Char) (s : Process) : Process → Prop where
  | end_ (walk : s.walk = .looking []) : Takes contents text s (s.goto (.returned 0))
  | skipFile {dirName level name next calls} (walk : s.walk = .looking (⟨dirName, level, .file name next⟩ :: calls))
    (dots : IsDots name) : Takes contents text s (s.goto (.looking (⟨dirName, level, next⟩ :: calls)))
  | skipDir {dirName level name sub next calls}
    (walk : s.walk = .looking (⟨dirName, level, .dir name sub next⟩ :: calls)) (dots : IsDots name) :
    Takes contents text s (s.goto (.looking (⟨dirName, level, next⟩ :: calls)))
  | file {dirName level name next calls pool} (walk : s.walk = .looking (⟨dirName, level, .file name next⟩ :: calls))
    (dots : ¬ IsDots name) (begin : Pool.step s.pool (.addSearch (filePath dirName name) text) = some pool) :
    Takes contents text s { s with pool, walk := .adding (⟨dirName, level, next⟩ :: calls) }
  | dir {dirName level name sub next calls}
    (walk : s.walk = .looking (⟨dirName, level, .dir name sub next⟩ :: calls)) (dots : ¬ IsDots name) :
    Takes contents text s (s.call (filePath dirName name) sub (⟨dirName, level, next⟩ :: calls))
  | done {dirName level calls pool} (walk : s.walk = .looking (⟨dirName, level, .done⟩ :: calls)) (zero : level = 0)
    (begin : Pool.step s.pool .waitForSearchCompletion = some pool) :
    Takes contents text s { s with pool, walk := .waiting calls }
  | doneSub {dirName level calls} (walk : s.walk = .looking (⟨dirName, level, .done⟩ :: calls)) (zero : level ≠ 0) :
    Takes contents text s (s.goto (.looking calls))
  | added {calls} (walk : s.walk = .adding calls) (pc : s.pool.pc = .idle) :
    Takes contents text s (s.goto (if s.pool.thrown = [] then .looking calls else .returned (-1)))
  | waited {calls} (walk : s.walk = .waiting calls) (pc : s.pool.pc = .idle) :
    Takes contents text s (s.goto (if s.pool.thrown = [] then .looking calls else .aborted))
  | leave {r pool} (walk : s.walk = .returned r) (begin : Pool.step s.pool .destroy = some pool) :
    Takes contents text s { s with pool, walk := .leaving (if r ≠ 0 then -2 else 0) }
  | exit {code} (walk : s.walk = .leaving code) (pc : s.pool.pc = .destroyed) :
    Takes contents text s (s.goto (.exited code))
  | call {e pool} (alive : ¬ s.walk.Ended) (isCall : IsCall e) (next : Pool.step s.pool e = some pool) :
    Takes contents text s { s with pool }
  | search {t fileName text' p rf} (alive : ¬ s.walk.Ended) (thread : s.threads[t]? = some (fileName, text'))
    (next : Searches contents fileName text' t s.rf (s.searcher t) p rf) :
    Takes contents text s { s with rf, searcher := Function.update s.searcher t p }
  | finish {t r pool} (alive : ¬ s.walk.Ended) (returned : s.searcher t = .returned r)
    (next : Pool.step s.pool (.finish t) = some pool) : Takes contents text s { s with pool }

section

variable {contents : List Char → Option (List Char)} {text : List Char} {s s' : Process} {turn : Turn}

/-- Inversion for a turn of the main thread. -/
lemma takes_of_main (next : s.main text = some s') : Takes contents text s s' := by
  rw [Process.main] at next
  split at next
  · next walk =>
    cases next
    exact .end_ walk
  · next walk =>
    split_ifs at next with dots
    · cases next
      exact .skipFile walk dots
    · obtain ⟨pool, begin, rfl⟩ := Option.map_eq_some_iff.1 next
      exact .file walk dots begin
  · next walk =>
    split_ifs at next with dots
    · cases next
      exact .skipDir walk dots
    · cases next
      exact .dir walk dots
  · next walk =>
    split_ifs at next with zero
    · obtain ⟨pool, begin, rfl⟩ := Option.map_eq_some_iff.1 next
      exact .done walk zero begin
    · cases next
      exact .doneSub walk zero
  · next walk =>
    rw [Process.resume] at next
    split at next
    · next pc =>
      cases next
      exact .added walk pc
    · cases next
  · next walk =>
    rw [Process.resume] at next
    split at next
    · next pc =>
      cases next
      exact .waited walk pc
    · cases next
  · next walk =>
    obtain ⟨pool, begin, rfl⟩ := Option.map_eq_some_iff.1 next
    exact .leave walk begin
  · next walk =>
    split at next
    · next pc =>
      cases next
      exact .exit walk pc
    · cases next
  · cases next
  · cases next

/-- Inversion for a turn of a search. -/
lemma takes_of_search {t : Nat} (alive : ¬ s.walk.Ended) (next : s.search contents t = some s') :
    Takes contents text s s' := by
  rw [Process.search] at next
  split at next
  · cases next
  · next fileName text' thread =>
    split at next
    · next r returned =>
      obtain ⟨pool, finish, rfl⟩ := Option.map_eq_some_iff.1 next
      exact .finish alive returned finish
    · obtain ⟨⟨p, rf⟩, search, rfl⟩ := Option.map_eq_some_iff.1 next
      exact .search alive thread (searches_of_doSearch search)

/-- Inversion for a turn. -/
lemma takes_of_step (next : s.step contents text turn = some s') : Takes contents text s s' := by
  unfold Process.step at next
  split_ifs at next with ended
  cases turn with
  | main => exact takes_of_main next
  | call e =>
    dsimp only at next
    split_ifs at next with call
    obtain ⟨pool, step, rfl⟩ := Option.map_eq_some_iff.1 next
    exact .call ended call step
  | search t => exact takes_of_search ended next

end

end PDS.Cpp
